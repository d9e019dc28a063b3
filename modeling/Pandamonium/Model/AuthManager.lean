import Pandamonium.Library.Dict
import Pandamonium.Library.SharedFile
import Pandamonium.Library.TransitionSystem

/-!
# Accounts and sessions

The sections of `AuthManager` (`core/auth.py`) that run under one of its locks, each a function
on what is in memory.  A session is a dictionary object that `_sessions` and every snapshot of
it share: `objects` has all that were ever made, under their tokens, and `live` the tokens that
are in `_sessions`.  An account has a serial number, which the source does not have: names are
used again, serial numbers are not.
-/

set_option autoImplicit false

namespace Pandamonium.Auth

open Pandamonium.Library

/-! ## Accounts -/

/-- The keys of `DEFAULT_PRIVILEGES`. -/
structure Privileges where
  canUseAgent : Bool
  canUseBrowser : Bool
  canUseBash : Bool
  canUseDocuments : Bool
  canUseResearch : Bool
  canGenerateImages : Bool
  canManageMemory : Bool
  maxMessagesPerDay : ℕ
  allowedModels : List String
  allowedModelsRestricted : Bool
  blockAllModels : Bool
  deriving DecidableEq, Repr

/-- `DEFAULT_PRIVILEGES` -/
def defaultPrivileges : Privileges :=
  { canUseAgent := true, canUseBrowser := true, canUseBash := false, canUseDocuments := true,
    canUseResearch := true, canGenerateImages := true, canManageMemory := true,
    maxMessagesPerDay := 0, allowedModels := [], allowedModelsRestricted := false,
    blockAllModels := false }

/-- `ADMIN_PRIVILEGES` -/
def adminPrivileges : Privileges :=
  { canUseAgent := true, canUseBrowser := true, canUseBash := true, canUseDocuments := true,
    canUseResearch := true, canGenerateImages := true, canManageMemory := true,
    maxMessagesPerDay := 0, allowedModels := [], allowedModelsRestricted := false,
    blockAllModels := false }

/-- A row of `_config["users"]`. -/
structure Account where
  /-- How many accounts were created before. -/
  serial : ℕ
  passwordHash : String
  created : ℕ
  isAdmin : Bool
  privileges : Privileges
  deriving DecidableEq, Repr

/-- `RESERVED_USERNAMES` -/
def reservedUsernames : List String := ["internal-tool", "api", "demo", "system"]

/-- `TOKEN_TTL`; times are in seconds. -/
def tokenTtl : ℕ := 60 * 60 * 24 * 7

/-- `str.strip().lower()`, which applied twice does what it does once. -/
structure Naming where
  normalize : String → String
  normalize_normalize : ∀ name, normalize (normalize name) = normalize name

/-- Names that are in lower case already. -/
def plain : Naming := ⟨id, fun _ => rfl⟩

/-! ## Sessions -/

structure Session where
  username : String
  expiry : ℕ
  /-- The serial number of the account it was issued for, which the source does not have. -/
  account : ℕ
  deriving DecidableEq, Repr

structure Manager where
  users : Dict String Account
  /-- How many accounts have been created. -/
  created : ℕ
  /-- Every session that was issued, under its token. -/
  objects : Dict String Session
  /-- The keys of `_sessions`. -/
  live : List String
  /-- The tokens of sessions that `revoke_token` was called with. -/
  revoked : List String

/-- `self._sessions.get(token)` -/
def Manager.session? (m : Manager) (token : String) : Option Session :=
  if token ∈ m.live then m.objects.get? token else none

/-- `self.users.get(username, {}).get("is_admin")` -/
def Manager.isAdmin (m : Manager) (username : String) : Bool :=
  (m.users.get? username).any Account.isAdmin

/-! ## Sections under the configuration lock -/

variable (naming : Naming)

/-- `create_user`; `none` where it returns `False`.  The hash is salted, so it is not a function
of the password. -/
def createUser (username passwordHash : String) (isAdmin : Bool) (now : ℕ) (m : Manager) :
    Option Manager :=
  let username := naming.normalize username
  if username = "" ∨ username ∈ reservedUsernames ∨ (m.users.get? username).isSome then none
  else
    some { m with
      users := m.users.set username
        { serial := m.created
          passwordHash := passwordHash
          created := now
          isAdmin := isAdmin
          privileges := if isAdmin then adminPrivileges else defaultPrivileges }
      created := m.created + 1 }

/-- The first section of `delete_user`.  The flag says whether the store of API tokens is
available. -/
def deleteUser (username requestingUser : String) (tokenStore : Bool) (m : Manager) :
    Option Manager :=
  let username := naming.normalize username
  if (m.users.get? username).isNone ∨ username = requestingUser ∨ ¬ m.isAdmin requestingUser ∨
      ¬ tokenStore then none
  else some { m with users := m.users.erase username }

/-- The first section of `rename_user`. -/
def renameUser (oldUsername newUsername requestingUser : String) (m : Manager) : Option Manager :=
  let oldUsername := naming.normalize oldUsername
  let newUsername := naming.normalize newUsername
  if oldUsername = "" ∨ newUsername = "" ∨ newUsername ∈ reservedUsernames ∨
      (m.users.get? newUsername).isSome ∨ ¬ m.isAdmin (naming.normalize requestingUser) then none
  else
    (m.users.get? oldUsername).map fun account =>
      { m with users := (m.users.erase oldUsername).set newUsername account }

/-- `create_session_trusted` under both locks, with the token that `secrets` draws; `none` where
there is no such user. -/
def createSessionTrusted (username token : String) (now : ℕ) (m : Manager) : Option Manager :=
  let username := naming.normalize username
  (m.users.get? username).map fun account =>
    { m with
      objects := m.objects.set token
        { username := username, expiry := now + tokenTtl, account := account.serial }
      live := m.live ++ [token] }

/-! ## Sections under the session lock -/

/-- `self._sessions.pop(token, None)` for every token of the kind. -/
def Manager.drop (p : String → Bool) (m : Manager) : Manager :=
  { m with live := m.live.filter fun token => !p token }

/-- What the lookup of a token comes to. -/
inductive Check
  | absent
  /-- The session has expired or its user is gone. -/
  | dropped
  | valid (username : String)
  deriving DecidableEq, Repr

/-- The section of `validate_token` and `get_username_for_token`. -/
def check (m : Manager) (token : String) (now : ℕ) : Check :=
  if token = "" then .absent
  else
    match m.session? token with
    | none => .absent
    | some session =>
      if now > session.expiry ∨ (m.users.get? session.username).isNone then .dropped
      else .valid session.username

/-- `get_username_for_token` -/
def getUsernameForToken (m : Manager) (token : String) (now : ℕ) : Option String :=
  match check m token now with
  | .valid username => some username
  | _ => none

/-- `validate_token` -/
def validateToken (m : Manager) (token : String) (now : ℕ) : Bool :=
  (getUsernameForToken m token now).isSome

/-- The account that a token authenticates. -/
def authenticates (m : Manager) (token : String) (now : ℕ) : Option Account :=
  (getUsernameForToken m token now).bind m.users.get?

/-- The section of `revoke_token`. -/
def revokeToken (token : String) (m : Manager) : Manager :=
  { m.drop (fun t => t = token) with
    revoked := if (m.objects.get? token).isSome then token :: m.revoked else m.revoked }

/-- The sessions of a user. -/
def Manager.sessionsOf (m : Manager) (username : String) (token : String) : Bool :=
  (m.session? token).any fun session => session.username = username

/-- The sessions that `rename_user` rewrites. -/
def Manager.renamed (m : Manager) (oldUsername token : String) : Bool :=
  (m.session? token).any fun session => naming.normalize session.username = oldUsername

/-- `sess["username"] = new_username`, in the objects. -/
def Manager.relabel (m : Manager) (oldUsername newUsername : String) : Manager :=
  { m with
    objects := m.objects.mapItems fun token session =>
      if m.renamed naming oldUsername token then { session with username := newUsername }
      else session }

/-! ## The sessions file -/

/-- An entry of the sessions file: the token, the name and the expiry. -/
structure Stored where
  token : String
  username : String
  expiry : ℕ
  deriving DecidableEq, Repr

/-- What `json.dump` makes of a snapshot: the objects are read now. -/
def Manager.stored (m : Manager) (snapshot : List String) : List Stored :=
  snapshot.filterMap fun token => (m.objects.get? token).map fun session =>
    { token := token, username := session.username, expiry := session.expiry }

/-- `_load_sessions` -/
def loadSessions (now : ℕ) (file : List Stored) : List Stored :=
  file.filter fun entry => entry.expiry > now

end Pandamonium.Auth

/-!
## Administrators

The operations of `AuthManager` (`core/auth.py`) that make, drop, rename, promote and demote
accounts.  Each decides and writes under the configuration lock, so it is one step.  A save that
fails raises after the table in memory has changed; the step is the same.
-/

namespace Pandamonium.Auth

open Pandamonium.Library

/-- The manager, with a field of its accounts that only `set_admin` reads. -/
structure Roles where
  manager : Manager
  /-- `privileges_before_admin`, under the serial number of the account. -/
  privilegesBeforeAdmin : Dict ℕ Privileges

inductive SetAdminResult
  | ok
  | userNotFound
  | notAuthorized
  | lastAdmin
  deriving DecidableEq, Repr

/-- `sum(1 for d in self.users.values() if d.get("is_admin"))` -/
def Manager.adminCount (m : Manager) : ℕ := m.users.values.countP Account.isAdmin

variable (naming : Naming)

/-- `setup` -/
def setup (username passwordHash : String) (now : ℕ) (m : Manager) : Option Manager :=
  if m.users.items ≠ [] then none else createUser naming username passwordHash true now m

/-- The account made an administrator, and what it could do before stashed. -/
def Roles.promote (username : String) (target : Account) (r : Roles) : Roles :=
  { manager :=
      { r.manager with
        users := r.manager.users.set username
          { target with isAdmin := true, privileges := adminPrivileges } }
    privilegesBeforeAdmin := r.privilegesBeforeAdmin.set target.serial target.privileges }

/-- The account made a plain one again, with what was stashed. -/
def Roles.demote (username : String) (target : Account) (r : Roles) : Roles :=
  { manager :=
      { r.manager with
        users := r.manager.users.set username
          { target with
            isAdmin := false
            privileges :=
              (r.privilegesBeforeAdmin.get? target.serial).getD defaultPrivileges } }
    privilegesBeforeAdmin := r.privilegesBeforeAdmin.erase target.serial }

/-- `set_admin` -/
def setAdmin (username : String) (isAdmin : Bool) (requestingUser : String) (r : Roles) :
    SetAdminResult × Roles :=
  let username := naming.normalize username
  match r.manager.users.get? username with
  | none => (.userNotFound, r)
  | some target =>
    if ¬ r.manager.isAdmin (naming.normalize requestingUser) then (.notAuthorized, r)
    else if target.isAdmin = isAdmin then (.ok, r)
    else if isAdmin then (.ok, r.promote username target)
    else if r.manager.adminCount ≤ 1 then (.lastAdmin, r)
    else (.ok, r.demote username target)

/-! ## Requests -/

inductive RoleRequest
  | setup (username passwordHash : String) (now : ℕ)
  | createUser (username passwordHash : String) (isAdmin : Bool) (now : ℕ)
  | deleteUser (username requestingUser : String) (tokenStore : Bool)
  | renameUser (oldUsername newUsername requestingUser : String)
  | setAdmin (username : String) (isAdmin : Bool) (requestingUser : String)

/-- What a refused operation leaves is what there was. -/
def Roles.orRefused (r : Roles) (answer : Option Manager) : Roles :=
  { r with manager := answer.getD r.manager }

def Roles.perform (r : Roles) : RoleRequest → Roles
  | .setup username passwordHash now =>
    r.orRefused (setup naming username passwordHash now r.manager)
  | .createUser username passwordHash isAdmin now =>
    r.orRefused (createUser naming username passwordHash isAdmin now r.manager)
  | .deleteUser username requestingUser tokenStore =>
    r.orRefused (deleteUser naming username requestingUser tokenStore r.manager)
  | .renameUser oldUsername newUsername requestingUser =>
    r.orRefused (renameUser naming oldUsername newUsername requestingUser r.manager)
  | .setAdmin username isAdmin requestingUser =>
    (setAdmin naming username isAdmin requestingUser r).2

/-- No accounts, as on the first start. -/
def Roles.new : Roles := ⟨⟨Dict.empty, 0, Dict.empty, [], []⟩, Dict.empty⟩

/-- The operations in any order, from whatever table was loaded. -/
def roles : TransitionSystem Roles RoleRequest where
  init _ := True
  step r request := some (r.perform naming request)

end Pandamonium.Auth

/-!
## Threads of the account manager

`AuthManager` is called from a pool of threads.  A call is a sequence of steps: each section
under a lock is one, and behind the last one `_save_sessions` takes its snapshot under the
session lock, writes the temporary file and renames it, with nothing held.  Only
`revoke_user_sessions` saves with the session lock held.

The temporary file has the name of the process (`core/atomic_io.py`), so all threads share it.
Writing it is one step; an error of the file system other than its absence is left out.
-/

namespace Pandamonium.Auth

open Pandamonium.Library

/-- What is left of the call that a thread is in. -/
inductive Call
  /-- `delete_user` behind its first section. -/
  | purge (username : String)
  /-- `rename_user` behind its first section. -/
  | relabel (oldUsername newUsername : String)
  /-- `_save_sessions`, with or without the session lock. -/
  | save (locked : Bool) (writing : Writing (List String))
  deriving DecidableEq, Repr

structure World where
  manager : Manager
  threads : Dict ℕ Call
  /-- The thread that keeps the session lock between its steps. -/
  holder : Option ℕ
  file : SharedFile (List Stored)

/-- What a thread does next: it starts a call, or goes on with the one it is in. -/
inductive Label
  | createUser (username passwordHash : String) (isAdmin : Bool) (now : ℕ)
  | deleteUser (thread : ℕ) (username requestingUser : String) (tokenStore : Bool)
  | renameUser (thread : ℕ) (oldUsername newUsername requestingUser : String)
  | createSessionTrusted (thread : ℕ) (username token : String) (now : ℕ)
  /-- `validate_token` or `get_username_for_token` -/
  | validateToken (thread : ℕ) (token : String) (now : ℕ)
  | revokeToken (thread : ℕ) (token : String)
  | revokeUserSessions (thread : ℕ) (username : String) (exceptToken : Option String)
  | advance (thread : ℕ)
  deriving DecidableEq, Repr

/-- The thread is in no call. -/
def World.idle (w : World) (thread : ℕ) : Prop := w.threads.get? thread = none

instance (w : World) (thread : ℕ) : Decidable (w.idle thread) :=
  inferInstanceAs (Decidable (_ = _))

/-- The session lock is free for the thread. -/
def World.free (w : World) (thread : ℕ) : Prop := w.holder = none ∨ w.holder = some thread

instance (w : World) (thread : ℕ) : Decidable (w.free thread) :=
  inferInstanceAs (Decidable (_ ∨ _))

/-- The manager is changed, and what is left of the call of the thread. -/
def World.after (w : World) (thread : ℕ) (call : Call) (manager : Manager) : World :=
  { w with manager := manager, threads := w.threads.set thread call }

/-- The call of the thread returns. -/
def World.returned (w : World) (thread : ℕ) : World :=
  { w with threads := w.threads.erase thread }

/-- The sessions of the kind are dropped, and saved if there are any. -/
def World.dropping (w : World) (thread : ℕ) (p : String → Bool) : World :=
  if w.manager.live.any p then w.after thread (.save false .due) (w.manager.drop p)
  else w.returned thread

variable (naming : Naming)

/-- The next step of a call. -/
def goOn (w : World) (thread : ℕ) : Call → Option World
  | .purge username =>
    if w.free thread then some (w.dropping thread (w.manager.sessionsOf username)) else none
  | .relabel oldUsername newUsername =>
    if w.free thread then
      some (if w.manager.live.any (w.manager.renamed naming oldUsername) then
        w.after thread (.save false .due) (w.manager.relabel naming oldUsername newUsername)
      else w.returned thread)
    else none
  | .save locked .due =>
    if w.free thread then
      some { w.after thread (.save locked (.holding (w.file.taken + 1) w.manager.live)) w.manager with
        file := w.file.take }
    else none
  | .save locked (.holding number snapshot) =>
    some { w.after thread (.save locked .filled) w.manager with
      file := w.file.fill number (w.manager.stored snapshot) }
  | .save locked .filled =>
    some { w.returned thread with
      file := w.file.replace
      holder := if locked then none else w.holder }

def step (w : World) : Label → Option World
  | .createUser username passwordHash isAdmin now =>
    some { w with
      manager := (createUser naming username passwordHash isAdmin now w.manager).getD w.manager }
  | .deleteUser thread username requestingUser tokenStore =>
    if w.idle thread then
      some (match deleteUser naming username requestingUser tokenStore w.manager with
        | some manager => w.after thread (.purge (naming.normalize username)) manager
        | none => w)
    else none
  | .renameUser thread oldUsername newUsername requestingUser =>
    if w.idle thread then
      some (match renameUser naming oldUsername newUsername requestingUser w.manager with
        | some manager =>
          w.after thread (.relabel (naming.normalize oldUsername) (naming.normalize newUsername))
            manager
        | none => w)
    else none
  | .createSessionTrusted thread username token now =>
    -- `secrets.token_hex(32)` is not empty, and draws no token twice
    if w.idle thread ∧ w.free thread ∧ token ≠ "" ∧ w.manager.objects.get? token = none then
      some (match createSessionTrusted naming username token now w.manager with
        | some manager => w.after thread (.save false .due) manager
        | none => w)
    else none
  | .validateToken thread token now =>
    if w.idle thread ∧ w.free thread then
      some (match check w.manager token now with
        | .dropped => w.after thread (.save false .due) (w.manager.drop fun t => t = token)
        | _ => w)
    else none
  | .revokeToken thread token =>
    if w.idle thread ∧ w.free thread then
      some (w.after thread (.save false .due) (revokeToken token w.manager))
    else none
  | .revokeUserSessions thread username exceptToken =>
    if w.idle thread ∧ w.free thread then
      let p := fun token =>
        some token ≠ exceptToken && w.manager.sessionsOf (naming.normalize username) token
      some (if w.manager.live.any p then
        { w.after thread (.save true .due) (w.manager.drop p) with holder := some thread }
      else w)
    else none
  | .advance thread => (w.threads.get? thread).bind (goOn naming w thread)

/-- A manager that has just loaded its files, with no thread in it: the sessions are those of
the file. -/
structure Started (w : World) : Prop where
  threads : ∀ thread, w.threads.get? thread = none
  holder : w.holder = none
  content : w.file.content = w.manager.stored w.manager.live
  temporary : w.file.temporary = none
  counted : w.file.written = w.file.taken
  known : ∀ token ∈ w.manager.live, (w.manager.objects.get? token).isSome = true
  revoked : w.manager.revoked = []

/-- The threads of the manager. -/
def threads : TransitionSystem World Label where
  init := Started
  step := step naming

end Pandamonium.Auth
