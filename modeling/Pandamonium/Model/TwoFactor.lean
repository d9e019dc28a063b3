import Pandamonium.Model.AuthManager

/-!
# Two-factor authentication

`totp_verify`, `totp_confirm_enable` and `totp_disable` of `AuthManager`, called from several
threads.  Each looks at the account without a lock and changes it under the configuration lock
later.  The backup codes of an account are a list object: `totp_verify` gets hold of it, finds the
code in it, and under the lock removes the code from that object and stores the object again,
whatever the account has by then.  A list object is its number here, in the order they are made.

An account keeps the number of the list that its last enrolment made, which the source does not.
-/

set_option autoImplicit false

namespace Pandamonium.TwoFactor

open Pandamonium.Library Pandamonium.Auth

/-- What is outside: `pyotp.TOTP(secret).verify(code, valid_window=1)` at a time, and
`bcrypt.checkpw`. -/
structure Checks where
  naming : Naming
  verifyTotp : String → String → ℕ → Bool
  checkPassword : String → String → Bool

/-- The fields of an account that are read or written. -/
structure User where
  passwordHash : String
  totpSecret : Option String
  totpSecretPending : Option String
  totpEnabled : Bool
  /-- The list object of `totp_backup_codes`. -/
  totpBackupCodes : Option ℕ
  /-- The list object of the last enrolment. -/
  enrolment : Option ℕ
  deriving DecidableEq, Repr

/-- A list of backup codes, and the codes that it was made with. -/
structure CodeList where
  generated : List String
  remaining : List String
  deriving DecidableEq, Repr

/-- What is left of the call that a thread is in. -/
inductive Call
  /-- `totp_verify` before it gets the list. -/
  | reading (username code secret : String)
  /-- `totp_verify` with the list, and the last enrolment when it got it. -/
  | looking (username code secret : String) (codes : ℕ) (since : Option ℕ)
  /-- `totp_verify` when it has found the code in the list. -/
  | spending (username code secret : String) (codes : ℕ) (since : Option ℕ)
  /-- `totp_confirm_enable` behind its check of the code. -/
  | confirming (username secret : String)
  /-- `totp_disable` behind its check of the password. -/
  | disabling (username : String)
  deriving DecidableEq, Repr

/-- A backup code that was accepted, the list it was in, and the last enrolment of the account
at that time. -/
structure Acceptance where
  code : String
  codes : ℕ
  newest : Option ℕ
  deriving DecidableEq, Repr

structure World where
  users : Dict String User
  lists : List CodeList
  threads : Dict ℕ Call
  accepted : List Acceptance
  /-- What the calls returned; one that raised returned nothing. -/
  results : List (ℕ × Bool)

inductive Label
  /-- `totp_generate_secret`, with the secret that is drawn. -/
  | totpGenerateSecret (username secret : String)
  | totpConfirmEnable (thread : ℕ) (username code : String) (now : ℕ)
  /-- The section of `totp_confirm_enable`, with the codes that are drawn. -/
  | enable (thread : ℕ) (backup : List String)
  | totpVerify (thread : ℕ) (username code : String)
  | totpDisable (thread : ℕ) (username password : String)
  | advance (thread : ℕ) (now : ℕ)
  deriving DecidableEq, Repr

/-- The thread is in no call. -/
def World.idle (w : World) (thread : ℕ) : Prop := w.threads.get? thread = none

instance (w : World) (thread : ℕ) : Decidable (w.idle thread) :=
  inferInstanceAs (Decidable (_ = _))

/-- The call goes on. -/
def World.on (w : World) (thread : ℕ) (call : Call) : World :=
  { w with threads := w.threads.set thread call }

/-- The call returns. -/
def World.returned (w : World) (thread : ℕ) (result : Bool) : World :=
  { w with threads := w.threads.erase thread, results := (thread, result) :: w.results }

/-- The call raises. -/
def World.raised (w : World) (thread : ℕ) : World :=
  { w with threads := w.threads.erase thread }

/-- `self._config["users"][username]` is changed. -/
def World.change (w : World) (username : String) (f : User → User) : World :=
  { w with
    users := match w.users.get? username with
      | some user => w.users.set username (f user)
      | none => w.users }

/-- What `if not secret` lets pass. -/
def secretOf (secret : Option String) : Option String := secret.filter fun s => s ≠ ""

/-- The last enrolment of an account. -/
def World.enrolment (w : World) (username : String) : Option ℕ :=
  (w.users.get? username).bind User.enrolment

variable (checks : Checks)

/-- The first reads of `totp_verify`. -/
def totpVerify (thread : ℕ) (username code : String) (w : World) : World :=
  let username := checks.naming.normalize username
  match w.users.get? username with
  | none => w.returned thread true
  | some user =>
    if user.totpEnabled then
      match secretOf user.totpSecret with
      | none => w.returned thread false
      | some secret => w.on thread (.reading username code secret)
    else w.returned thread true

/-- The first reads of `totp_confirm_enable`, and its check of the code. -/
def totpConfirmEnable (thread : ℕ) (username code : String) (now : ℕ) (w : World) : World :=
  let username := checks.naming.normalize username
  match secretOf ((w.users.get? username).bind User.totpSecretPending) with
  | none => w.returned thread false
  | some secret =>
    if checks.verifyTotp secret code now then w.on thread (.confirming username secret)
    else w.returned thread false

/-- `totp_disable` up to its check of the password. -/
def totpDisable (thread : ℕ) (username password : String) (w : World) : World :=
  let username := checks.naming.normalize username
  if (w.users.get? username).any fun user => checks.checkPassword password user.passwordHash then
    w.on thread (.disabling username)
  else w.returned thread false

/-- `totp_generate_secret` -/
def totpGenerateSecret (username secret : String) (w : World) : World :=
  w.change (checks.naming.normalize username) fun user =>
    { user with totpSecretPending := some secret }

/-- The section of `totp_confirm_enable`. -/
def enable (thread : ℕ) (username secret : String) (backup : List String) (w : World) : World :=
  let w := w.change username fun user =>
    { user with
      totpSecret := some secret
      totpEnabled := true
      totpSecretPending := none
      totpBackupCodes := some w.lists.length
      enrolment := some w.lists.length }
  { w.returned thread true with
    lists := w.lists ++ [{ generated := backup, remaining := backup }] }

/-- The section of `totp_verify`: `backup.remove(code)` raises when the code is gone. -/
def spend (thread : ℕ) (username code : String) (codes : ℕ) (w : World) : World :=
  match w.lists[codes]? with
  | none => w.raised thread
  | some list =>
    if code ∈ list.remaining then
      let w' := w.change username fun user => { user with totpBackupCodes := some codes }
      { w'.returned thread true with
        lists := w.lists.set codes { list with remaining := list.remaining.erase code }
        accepted := { code := code, codes := codes, newest := w.enrolment username } :: w.accepted }
    else w.raised thread

/-- The section of `totp_disable`. -/
def disable (thread : ℕ) (username : String) (w : World) : World :=
  (w.change username fun user =>
    { user with
      totpSecret := none
      totpSecretPending := none
      totpBackupCodes := none
      totpEnabled := false }).returned thread true

/-- The next step of a call that has one by itself. -/
def goOn (w : World) (thread now : ℕ) : Call → Option World
  | .reading username code secret =>
    some (match (w.users.get? username).bind User.totpBackupCodes with
      | some codes => w.on thread (.looking username code secret codes (w.enrolment username))
      | none => w.returned thread (checks.verifyTotp secret code now))
  | .looking username code secret codes since =>
    some (if (w.lists[codes]?).any fun list => code ∈ list.remaining then
        w.on thread (.spending username code secret codes since)
      else w.returned thread (checks.verifyTotp secret code now))
  | .spending username code _ codes _ => some (spend thread username code codes w)
  | .confirming _ _ => none
  | .disabling username => some (disable thread username w)

def step (w : World) : Label → Option World
  | .totpGenerateSecret username secret => some (totpGenerateSecret checks username secret w)
  | .totpConfirmEnable thread username code now =>
    if w.idle thread then some (totpConfirmEnable checks thread username code now w) else none
  | .enable thread backup =>
    match w.threads.get? thread with
    | some (.confirming username secret) =>
      if backup.length = 8 then some (enable thread username secret backup w) else none
    | _ => none
  | .totpVerify thread username code =>
    if w.idle thread then some (totpVerify checks thread username code w) else none
  | .totpDisable thread username password =>
    if w.idle thread then some (totpDisable checks thread username password w) else none
  | .advance thread now => (w.threads.get? thread).bind (goOn checks w thread now)

/-- A manager that has just loaded its accounts: the codes of an account are those its last
enrolment has left. -/
structure Loaded (w : World) : Prop where
  threads : ∀ thread, w.threads.get? thread = none
  accepted : w.accepted = []
  codes : ∀ username user, w.users.get? username = some user →
    user.enrolment = user.totpBackupCodes
  known : ∀ username user codes, w.users.get? username = some user →
    user.totpBackupCodes = some codes → codes < w.lists.length
  lists : ∀ list ∈ w.lists, list.remaining = list.generated

/-- The threads of the manager. -/
def threads : TransitionSystem World Label where
  init := Loaded
  step := step checks

end Pandamonium.TwoFactor
