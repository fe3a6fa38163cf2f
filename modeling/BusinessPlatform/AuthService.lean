import BusinessPlatform.Client

/-! `AuthService`: login, and the rotation and revocation of refresh tokens. -/

namespace BusinessPlatform.AuthService
open Engine Program

inductive UserStatus where
  | active | suspended
  deriving DecidableEq, Repr

structure User where
  id : Id
  email : String
  passwordHash : Option String
  status : UserStatus
  deriving DecidableEq, Repr

/-- Only the hash of a token is stored. -/
structure RefreshToken where
  id : Id
  userId : Id
  tokenHash : String
  expiresAt : Nat
  revokedAt : Option Nat
  deriving DecidableEq, Repr

inductive AccountModel where
  | user | refreshToken
  deriving DecidableEq, Repr

namespace AccountModel

abbrev Row : AccountModel → Type
  | user => User
  | refreshToken => RefreshToken

/-- Tokens are told apart by their hashes, which are as unique as their ids. -/
abbrev Key : AccountModel → Type
  | user => Id
  | refreshToken => String

inductive Index where
  | email (email : String)
  | tokenId (id : Id)
  deriving DecidableEq, Repr

def key : {m : AccountModel} → Row m → Key m
  | user => User.id
  | refreshToken => RefreshToken.tokenHash

def indexes : {m : AccountModel} → Row m → List Index
  | user => fun row => [.email row.email]
  | refreshToken => fun row => [.tokenId row.id]

def keyColumns : AccountModel → List String
  | user => ["id"]
  | refreshToken => ["tokenHash"]

def columns : Index → List String
  | .email _ => ["email"]
  | .tokenId _ => ["id"]

def parents : {m : AccountModel} → Row m → List ((m : AccountModel) × Key m)
  | user => fun _ => []
  | refreshToken => fun row => [⟨user, row.userId⟩]

/-- ON DELETE CASCADE. -/
def cascade : {m : AccountModel} → Key m → List ((m : AccountModel) × (Row m → Bool))
  | user => fun id => [⟨refreshToken, fun row => row.userId = id⟩]
  | refreshToken => fun _ => []

instance keyDecidableEq : (m : AccountModel) → DecidableEq (Key m)
  | user => inferInstanceAs (DecidableEq Nat)
  | refreshToken => inferInstanceAs (DecidableEq String)

end AccountModel

@[reducible] def accounts : Schema where
  Model := AccountModel
  Row := AccountModel.Row
  Key := AccountModel.Key
  Index := AccountModel.Index
  key := AccountModel.key
  indexes := AccountModel.indexes
  keyColumns := AccountModel.keyColumns
  columns := AccountModel.columns
  check _ := true
  excludes _ _ := false
  parents := AccountModel.parents
  cascade := AccountModel.cascade

abbrev Auth (α : Type) : Type 1 := Program accounts HttpException α

/-- What the service gets from elsewhere: the n-th random token, SHA-256, the
verification of password hashes and the signature of access tokens. -/
structure Crypto where
  randomBytes : Nat → String
  sha256 : String → String
  verify : String → String → Bool
  signAsync : Id → String
  normalizeEmail : String → String

def GENERIC_AUTH_ERROR := "Invalid credentials"
def REFRESH_TOKEN_TTL_MS := 7 * 24 * 60 * 60 * 1000

def unauthorized : HttpException := .unauthorized GENERIC_AUTH_ERROR

structure LoginDto where
  email : String
  password : String
  deriving DecidableEq, Repr

structure RefreshDto where
  refreshToken : String
  deriving DecidableEq, Repr

structure Tokens where
  accessToken : String
  refreshToken : String
  deriving DecidableEq, Repr

variable (crypto : Crypto)

def hashToken (token : String) : String := crypto.sha256 token

/-- `createRefreshTokenMaterial`, stored for a user. -/
def refreshTokenMaterial (userId : Id) (stamp clock : Nat) : RefreshToken :=
  { id := stamp
    userId
    tokenHash := hashToken crypto (crypto.randomBytes stamp)
    expiresAt := clock + REFRESH_TOKEN_TTL_MS
    revokedAt := none }

/-- `data: { revokedAt: now }`. -/
def setRevokedAt (now : Nat) : Change accounts .refreshToken where
  apply row := { row with revokedAt := some now }
  keeps _ := rfl

def login (dto : LoginDto) : Auth Tokens := do
  let user ← findFirst (S := accounts) .user fun row => row.email = crypto.normalizeEmail dto.email
  let user ← orThrow user unauthorized
  let passwordHash ← orThrow (user.passwordHash.filter fun hash => hash ≠ "" && user.status = .active) unauthorized
  throwIf (!crypto.verify passwordHash dto.password) unauthorized
  let row ← create (S := accounts) .refreshToken (refreshTokenMaterial crypto user.id)
  pure ⟨crypto.signAsync user.id, crypto.randomBytes row.id⟩

/-- The token is live: neither revoked nor expired. -/
def live (tokenHash : String) (now : Nat) (row : RefreshToken) : Bool :=
  row.tokenHash = tokenHash && row.revokedAt = none && decide (now < row.expiresAt)

/-- The transaction of a refresh: revoke the presented token if it is live, and
issue its successor. -/
def rotate (tokenHash : String) (now : Nat) : Auth (Id × String) := do
  let existing ← findFirst (S := accounts) .refreshToken fun row => row.tokenHash = tokenHash
  let existing ← orThrow existing unauthorized
  let user ← findFirst (S := accounts) .user fun row => row.id = existing.userId
  let user ← orThrow (user.filter fun user => user.status = .active) unauthorized
  let revoked ← updateMany (S := accounts) .refreshToken (live tokenHash now) (setRevokedAt now)
  throwIf (revoked = 0) unauthorized
  let fresh ← create (S := accounts) .refreshToken (refreshTokenMaterial crypto user.id)
  pure (user.id, crypto.randomBytes fresh.id)

def refresh (dto : RefreshDto) : Auth Tokens := do
  let now ← now
  let rotated ← transaction (rotate crypto (hashToken crypto dto.refreshToken) now)
  pure ⟨crypto.signAsync rotated.1, rotated.2⟩

def logout (dto : RefreshDto) : Auth Unit := do
  let now ← now
  let _ ← updateMany (S := accounts) .refreshToken
    (fun row => row.tokenHash = hashToken crypto dto.refreshToken && row.revokedAt = none) (setRevokedAt now)
  pure ()

inductive AuthCall where
  | login (dto : LoginDto)
  | refresh (dto : RefreshDto)
  | logout (dto : RefreshDto)
  deriving DecidableEq, Repr

/-- A login and a refresh answer with tokens. -/
def AuthCall.program : AuthCall → Auth (Option Tokens)
  | .login dto => do
    let tokens ← AuthService.login crypto dto
    pure (some tokens)
  | .refresh dto => do
    let tokens ← AuthService.refresh crypto dto
    pure (some tokens)
  | .logout dto => do
    AuthService.logout crypto dto
    pure none

abbrev AuthState (ι : Type) : Type 1 := State accounts HttpException (Option Tokens) ι

abbrev AuthWorld (ι : Type) : Type := World accounts ι

variable {ι : Type} [DecidableEq ι]

def authSystem (database : Database accounts) (calls : ι → AuthCall) : AuthState ι :=
  State.initial database fun i => (calls i).program crypto

end BusinessPlatform.AuthService
