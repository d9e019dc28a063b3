import Pandamonium.Model.AuthManager
import Pandamonium.Model.Value

/-!
# What a user may do

The table of users of `AuthManager` (`core/auth.py`) with the maps of their privileges as they are
stored, which need not have every key, and the operations that change the table.  Each changes it
under the configuration lock; where one checks a password or a code before, the answer of the check
is a parameter.  A save that fails raises after the table in memory has changed; the step is the
same.
-/

set_option autoImplicit false

namespace Pandamonium.UserPrivileges

open Pandamonium.Library
open Pandamonium.Auth (Naming SetAdminResult reservedUsernames)

/-- `DEFAULT_PRIVILEGES` -/
def defaultPrivileges : Object :=
  [("can_use_agent", .bool true), ("can_use_browser", .bool true), ("can_use_bash", .bool false),
    ("can_use_documents", .bool true), ("can_use_research", .bool true),
    ("can_generate_images", .bool true), ("can_manage_memory", .bool true),
    ("max_messages_per_day", .int 0), ("allowed_models", .list []),
    ("allowed_models_restricted", .bool false), ("block_all_models", .bool false)]

/-- The value of a privilege with everything allowed. -/
def unlimited : Value → Value
  | .bool _ => .bool true
  | .int _ => .int 0
  | _ => .list []

/-- `ADMIN_PRIVILEGES` -/
def adminPrivileges : Object :=
  let everything : Object := defaultPrivileges.map fun item => (item.1, unlimited item.2)
  (everything.set "allowed_models_restricted" (.bool false)).set "block_all_models" (.bool false)

/-- `{**d, **d'}` -/
def merge (d d' : Object) : Object := d'.foldl (fun d item => d.set item.1 item.2) d

/-- What a user logs in with. -/
structure Credentials where
  passwordHash : String
  totpSecret : Option String
  totpSecretPending : Option String
  totpEnabled : Bool
  totpBackupCodes : List String
  deriving DecidableEq, Repr

/-- A row of `_config["users"]`. -/
structure User where
  credentials : Credentials
  created : ℕ
  isAdmin : Bool
  privileges : Option Object
  privilegesBeforeAdmin : Option Object

/-- `_config["users"]` -/
abbrev Users := Dict String User

/-- `users.get(username, {}).get("is_admin")` -/
def isAdmin (users : Users) (username : String) : Bool := (users.get? username).any User.isAdmin

/-- `get_privileges`, of a user that there is. -/
def User.getPrivileges (user : User) : Object :=
  if user.isAdmin then adminPrivileges
  else merge defaultPrivileges (user.privileges.getD [])

/-- `get_privileges` -/
def getPrivileges (users : Users) (username : String) : Object :=
  match users.get? username with
  | some user => user.getPrivileges
  | none => defaultPrivileges

/-- `stored or DEFAULT_PRIVILEGES` -/
def orDefault : Option Object → Object
  | none | some [] => defaultPrivileges
  | some stored => stored

variable (naming : Naming)

/-! ## Accounts -/

/-- `create_user`, without what it returns. -/
def createUser (username passwordHash : String) (isAdmin : Bool) (now : ℕ) (users : Users) :
    Users :=
  let username := naming.normalize username
  if username = "" ∨ username ∈ reservedUsernames ∨ (users.get? username).isSome then users
  else
    users.set username
      { credentials := ⟨passwordHash, none, none, false, []⟩
        created := now
        isAdmin
        privileges := some (if isAdmin then adminPrivileges else defaultPrivileges)
        privilegesBeforeAdmin := none }

/-- `setup` -/
def setup (username passwordHash : String) (now : ℕ) (users : Users) : Users :=
  if users.items ≠ [] then users else createUser naming username passwordHash true now users

/-- Whether `delete_user` deletes.  The flag says whether the store of API tokens is available. -/
def deletes (username requestingUser : String) (tokenStore : Bool) (users : Users) : Bool :=
  let username := naming.normalize username
  (users.get? username).isSome && decide (username ≠ requestingUser) &&
    isAdmin users requestingUser && tokenStore

/-- `delete_user` -/
def deleteUser (username requestingUser : String) (tokenStore : Bool) (users : Users) : Users :=
  if deletes naming username requestingUser tokenStore users then
    users.erase (naming.normalize username)
  else users

/-- Whether `rename_user` renames. -/
def renames (oldUsername newUsername requestingUser : String) (users : Users) : Bool :=
  let oldUsername := naming.normalize oldUsername
  let newUsername := naming.normalize newUsername
  decide (oldUsername ≠ "" ∧ newUsername ≠ "" ∧ newUsername ∉ reservedUsernames) &&
    (users.get? oldUsername).isSome && (users.get? newUsername).isNone &&
    isAdmin users (naming.normalize requestingUser)

/-- `rename_user`, without the sessions. -/
def renameUser (oldUsername newUsername requestingUser : String) (users : Users) : Users :=
  match users.get? (naming.normalize oldUsername) with
  | some user =>
    if renames naming oldUsername newUsername requestingUser users then
      (users.erase (naming.normalize oldUsername)).set (naming.normalize newUsername) user
    else users
  | none => users

/-! ## Privileges -/

/-- `set_privileges` -/
def setPrivileges (username : String) (privileges : Object) (users : Users) : Users :=
  let username := naming.normalize username
  match users.get? username with
  | none => users
  | some user =>
    if user.isAdmin then users
    else
      let known := privileges.filter fun item => (defaultPrivileges.get? item.1).isSome
      users.set username { user with privileges := some (merge user.getPrivileges known) }

/-- `sum(1 for d in self.users.values() if d.get("is_admin"))` -/
def adminCount (users : Users) : ℕ := users.values.countP User.isAdmin

/-- What `set_admin` makes of the row when it promotes. -/
def User.promoted (user : User) : User :=
  { user with
    isAdmin := true
    privilegesBeforeAdmin := some (orDefault user.privileges)
    privileges := some adminPrivileges }

/-- What it makes of the row when it demotes. -/
def User.demoted (user : User) : User :=
  { user with
    privileges := some (orDefault user.privilegesBeforeAdmin)
    privilegesBeforeAdmin := none
    isAdmin := false }

/-- `set_admin` -/
def setAdmin (username : String) (isAdmin : Bool) (requestingUser : String) (users : Users) :
    SetAdminResult × Users :=
  let username := naming.normalize username
  match users.get? username with
  | none => (.userNotFound, users)
  | some target =>
    if ¬ UserPrivileges.isAdmin users (naming.normalize requestingUser) then (.notAuthorized, users)
    else if target.isAdmin = isAdmin then (.ok, users)
    else if isAdmin then (.ok, users.set username target.promoted)
    else if adminCount users ≤ 1 then (.lastAdmin, users)
    else (.ok, users.set username target.demoted)

/-! ## Credentials -/

/-- The row of a user is changed in what the user logs in with, where there is a row. -/
def setCredentials (username : String) (change : Credentials → Credentials) (users : Users) :
    Users :=
  let username := naming.normalize username
  match users.get? username with
  | none => users
  | some user => users.set username { user with credentials := change user.credentials }

/-- `change_password`, with the answer of `bcrypt.checkpw` and the new hash. -/
def changePassword (username : String) (verified : Bool) (newHash : String) (users : Users) :
    Users :=
  if verified then setCredentials naming username (fun c => { c with passwordHash := newHash }) users
  else users

/-- `totp_generate_secret`, with the secret that is drawn. -/
def totpGenerateSecret (username secret : String) : Users → Users :=
  setCredentials naming username fun c => { c with totpSecretPending := some secret }

/-- `totp_confirm_enable`, with the secret that was pending, the answer of `totp.verify` and the
backup codes that are drawn. -/
def totpConfirmEnable (username secret : String) (verified : Bool) (backup : List String)
    (users : Users) : Users :=
  if verified then
    setCredentials naming username (fun c =>
      { c with
        totpSecret := some secret
        totpEnabled := true
        totpSecretPending := none
        totpBackupCodes := backup }) users
  else users

/-- `totp_verify`, which takes a backup code that was used off the list. -/
def totpVerify (username code : String) : Users → Users :=
  setCredentials naming username fun c =>
    if c.totpEnabled ∧ c.totpSecret.isSome then
      { c with totpBackupCodes := c.totpBackupCodes.erase code }
    else c

/-- `totp_disable`, with the answer of `bcrypt.checkpw`. -/
def totpDisable (username : String) (verified : Bool) (users : Users) : Users :=
  if verified then
    setCredentials naming username (fun c =>
      { c with
        totpSecret := none
        totpSecretPending := none
        totpBackupCodes := []
        totpEnabled := false }) users
  else users

/-! ## Requests -/

inductive Request
  | setup (username passwordHash : String) (now : ℕ)
  | createUser (username passwordHash : String) (isAdmin : Bool) (now : ℕ)
  | deleteUser (username requestingUser : String) (tokenStore : Bool)
  | renameUser (oldUsername newUsername requestingUser : String)
  | setPrivileges (username : String) (privileges : Object)
  | setAdmin (username : String) (isAdmin : Bool) (requestingUser : String)
  | changePassword (username : String) (verified : Bool) (newHash : String)
  | totpGenerateSecret (username secret : String)
  | totpConfirmEnable (username secret : String) (verified : Bool) (backup : List String)
  | totpVerify (username code : String)
  | totpDisable (username : String) (verified : Bool)

def perform (users : Users) : Request → Users
  | .setup username passwordHash now => setup naming username passwordHash now users
  | .createUser username passwordHash isAdmin now =>
    createUser naming username passwordHash isAdmin now users
  | .deleteUser username requestingUser tokenStore =>
    deleteUser naming username requestingUser tokenStore users
  | .renameUser oldUsername newUsername requestingUser =>
    renameUser naming oldUsername newUsername requestingUser users
  | .setPrivileges username privileges => setPrivileges naming username privileges users
  | .setAdmin username isAdmin requestingUser =>
    (setAdmin naming username isAdmin requestingUser users).2
  | .changePassword username verified newHash =>
    changePassword naming username verified newHash users
  | .totpGenerateSecret username secret => totpGenerateSecret naming username secret users
  | .totpConfirmEnable username secret verified backup =>
    totpConfirmEnable naming username secret verified backup users
  | .totpVerify username code => totpVerify naming username code users
  | .totpDisable username verified => totpDisable naming username verified users

end Pandamonium.UserPrivileges
