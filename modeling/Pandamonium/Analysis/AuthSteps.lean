import Pandamonium.Model.AuthManager

/-!
# What a step of the account manager does

`Move` lists what a step of a thread can make of the world, with what it found there, and
`move_of_step` is the one place that looks into the code of the steps: the invariants are kept
by every move.
-/

set_option autoImplicit false

namespace Pandamonium.Auth

open Pandamonium.Library

variable (naming : Naming)

/-- What the step `label` can make of the world. -/
inductive Move (w : World) (label : Label) : World → Prop
  /-- A check refused the call, or there was nothing to drop. -/
  | refused : Move w label w
  | created {username passwordHash : String} {isAdmin : Bool} {now : ℕ} {manager : Manager}
    (hlabel : label = .createUser username passwordHash isAdmin now)
    (hcreate : createUser naming username passwordHash isAdmin now w.manager = some manager) :
    Move w label { w with manager := manager }
  | deleted {thread : ℕ} {username requestingUser : String} {tokenStore : Bool}
    {manager : Manager} (hlabel : label = .deleteUser thread username requestingUser tokenStore)
    (hidle : w.idle thread)
    (hdelete : deleteUser naming username requestingUser tokenStore w.manager = some manager) :
    Move w label (w.after thread (.purge (naming.normalize username)) manager)
  | renamed {thread : ℕ} {oldUsername newUsername requestingUser : String} {manager : Manager}
    (hlabel : label = .renameUser thread oldUsername newUsername requestingUser)
    (hidle : w.idle thread)
    (hrename : renameUser naming oldUsername newUsername requestingUser w.manager = some manager) :
    Move w label (w.after thread
      (.relabel (naming.normalize oldUsername) (naming.normalize newUsername)) manager)
  | issued {thread : ℕ} {username token : String} {now : ℕ} {manager : Manager}
    (hidle : w.idle thread) (hfresh : w.manager.objects.get? token = none)
    (hcreate : createSessionTrusted naming username token now w.manager = some manager) :
    Move w label (w.after thread (.save false .due) manager)
  /-- Sessions that have run out are dropped, or those of a user. -/
  | dropped {thread : ℕ} (hidle : w.idle thread) (locked : Bool) (holder : Option ℕ)
    (p : String → Bool) :
    Move w label
      { w.after thread (.save locked .due) (w.manager.drop p) with holder := holder }
  | revoked {thread : ℕ} (hidle : w.idle thread) (token : String) :
    Move w label (w.after thread (.save false .due) (revokeToken token w.manager))
  | purged {thread : ℕ} {username : String}
    (hcall : w.threads.get? thread = some (.purge username)) :
    Move w label (w.after thread (.save false .due)
      (w.manager.drop (w.manager.sessionsOf username)))
  | nothingPurged {thread : ℕ} {username : String}
    (hcall : w.threads.get? thread = some (.purge username))
    (hnone : ¬ w.manager.live.any (w.manager.sessionsOf username)) :
    Move w label (w.returned thread)
  | relabelled {thread : ℕ} {oldUsername newUsername : String}
    (hcall : w.threads.get? thread = some (.relabel oldUsername newUsername)) :
    Move w label (w.after thread (.save false .due)
      (w.manager.relabel naming oldUsername newUsername))
  | nothingRelabelled {thread : ℕ} {oldUsername newUsername : String}
    (hcall : w.threads.get? thread = some (.relabel oldUsername newUsername))
    (hnone : ¬ w.manager.live.any (w.manager.renamed naming oldUsername)) :
    Move w label (w.returned thread)
  /-- A save takes its snapshot. -/
  | taken {thread : ℕ} {locked : Bool} (hcall : w.threads.get? thread = some (.save locked .due)) :
    Move w label
      { w.after thread (.save locked (.holding (w.file.taken + 1) w.manager.live)) w.manager with
        file := w.file.take }
  | filled {thread : ℕ} {locked : Bool} {number : ℕ} {snapshot : List String}
    (hlabel : label = .advance thread)
    (hcall : w.threads.get? thread = some (.save locked (.holding number snapshot))) :
    Move w label
      { w.after thread (.save locked .filled) w.manager with
        file := w.file.fill number (w.manager.stored snapshot) }
  | replaced {thread : ℕ} {locked : Bool} (holder : Option ℕ)
    (hcall : w.threads.get? thread = some (.save locked .filled)) :
    Move w label { w.returned thread with file := w.file.replace, holder := holder }

variable {naming}

theorem move_of_goOn {w w' : World} {thread : ℕ} {call : Call}
    (hcall : w.threads.get? thread = some call) (hstep : goOn naming w thread call = some w') :
    Move naming w (.advance thread) w' := by
  cases call with
  | purge username =>
    obtain ⟨-, hw⟩ := Option.ite_none_right_eq_some.mp hstep
    obtain rfl := Option.some.inj hw
    unfold World.dropping
    split
    · exact .purged hcall
    · exact .nothingPurged hcall ‹_›
  | relabel oldUsername newUsername =>
    obtain ⟨-, hw⟩ := Option.ite_none_right_eq_some.mp hstep
    obtain rfl := Option.some.inj hw
    split
    · exact .relabelled hcall
    · exact .nothingRelabelled hcall ‹_›
  | save locked writing =>
    cases writing with
    | due =>
      obtain ⟨-, hw⟩ := Option.ite_none_right_eq_some.mp hstep
      obtain rfl := Option.some.inj hw
      exact .taken hcall
    | holding number snapshot =>
      obtain rfl := Option.some.inj hstep
      exact .filled rfl hcall
    | filled =>
      obtain rfl := Option.some.inj hstep
      exact .replaced _ hcall

theorem move_of_step {w w' : World} {label : Label}
    (hstep : (threads naming).step w label = some w') : Move naming w label w' := by
  cases label with
  | createUser username passwordHash isAdmin now =>
    obtain rfl := Option.some.inj hstep
    cases hcreate : createUser naming username passwordHash isAdmin now w.manager with
    | none => exact .refused
    | some manager => exact .created rfl hcreate
  | deleteUser thread username requestingUser tokenStore =>
    obtain ⟨hidle, hw⟩ := Option.ite_none_right_eq_some.mp hstep
    obtain rfl := Option.some.inj hw
    cases hdelete : deleteUser naming username requestingUser tokenStore w.manager with
    | none => exact .refused
    | some manager => exact .deleted rfl hidle hdelete
  | renameUser thread oldUsername newUsername requestingUser =>
    obtain ⟨hidle, hw⟩ := Option.ite_none_right_eq_some.mp hstep
    obtain rfl := Option.some.inj hw
    cases hrename : renameUser naming oldUsername newUsername requestingUser w.manager with
    | none => exact .refused
    | some manager => exact .renamed rfl hidle hrename
  | createSessionTrusted thread username token now =>
    obtain ⟨⟨hidle, -, -, hfresh⟩, hw⟩ := Option.ite_none_right_eq_some.mp hstep
    obtain rfl := Option.some.inj hw
    cases hcreate : createSessionTrusted naming username token now w.manager with
    | none => exact .refused
    | some manager => exact .issued hidle hfresh hcreate
  | validateToken thread token now =>
    obtain ⟨⟨hidle, -⟩, hw⟩ := Option.ite_none_right_eq_some.mp hstep
    obtain rfl := Option.some.inj hw
    cases check w.manager token now with
    | absent => exact .refused
    | dropped => exact .dropped hidle false w.holder _
    | valid username => exact .refused
  | revokeToken thread token =>
    obtain ⟨⟨hidle, -⟩, hw⟩ := Option.ite_none_right_eq_some.mp hstep
    obtain rfl := Option.some.inj hw
    exact .revoked hidle token
  | revokeUserSessions thread username exceptToken =>
    obtain ⟨⟨hidle, -⟩, hw⟩ := Option.ite_none_right_eq_some.mp hstep
    obtain rfl := Option.some.inj hw
    split
    · exact .dropped hidle true (some thread) _
    · exact .refused
  | advance thread =>
    obtain ⟨call, hcall, hgo⟩ := Option.bind_eq_some_iff.mp hstep
    exact move_of_goOn hcall hgo

end Pandamonium.Auth

/-!
## Serial numbers of accounts

An account keeps its serial number when it is renamed, and no number is given out twice.  So the
serial number is the account, whatever its name is by now.
-/

namespace Pandamonium.Auth

open Pandamonium.Library

variable {naming : Naming}

/-- The serial numbers of the accounts are different and were all given out. -/
structure Numbered (m : Manager) : Prop where
  below : ∀ name account, m.users.get? name = some account → account.serial < m.created
  distinct : ∀ name name' account account', m.users.get? name = some account →
    m.users.get? name' = some account' → account.serial = account'.serial → name = name'

theorem Numbered.createUser {m m' : Manager} (h : Numbered m) {username passwordHash : String}
    {isAdmin : Bool} {now : ℕ}
    (hcreate : createUser naming username passwordHash isAdmin now m = some m') : Numbered m' := by
  obtain ⟨-, hm⟩ := Option.ite_none_left_eq_some.mp hcreate
  obtain rfl := Option.some.inj hm
  constructor
  case below =>
    intro name account haccount
    rw [Dict.get?_set] at haccount
    split at haccount
    · cases haccount
      exact Nat.lt_succ_self m.created
    · exact Nat.lt_succ_of_lt (h.below name account haccount)
  case distinct =>
    intro name name' account account' haccount haccount' hserial
    rw [Dict.get?_set] at haccount haccount'
    split at haccount <;> split at haccount'
    · rename_i hname hname'
      rw [hname, hname']
    · cases haccount
      have hlt := h.below name' account' haccount'
      exact absurd hserial (Nat.ne_of_gt hlt)
    · cases haccount'
      have hlt := h.below name account haccount
      exact absurd hserial (Nat.ne_of_lt hlt)
    · exact h.distinct name name' account account' haccount haccount' hserial

theorem Numbered.deleteUser {m m' : Manager} (h : Numbered m) {username requestingUser : String}
    {tokenStore : Bool}
    (hdelete : deleteUser naming username requestingUser tokenStore m = some m') : Numbered m' := by
  obtain ⟨-, hm⟩ := Option.ite_none_left_eq_some.mp hdelete
  obtain rfl := Option.some.inj hm
  have herased : ∀ name account,
      (m.users.erase (naming.normalize username)).get? name = some account →
      m.users.get? name = some account := by
    intro name account haccount
    rw [Dict.get?_erase] at haccount
    split at haccount
    · cases haccount
    · exact haccount
  refine ⟨fun name account haccount => h.below name account (herased _ _ haccount), ?_⟩
  intro name name' account account' haccount haccount'
  exact h.distinct name name' account account' (herased _ _ haccount) (herased _ _ haccount')

theorem Numbered.renameUser {m m' : Manager} (h : Numbered m)
    {oldUsername newUsername requestingUser : String}
    (hrename : renameUser naming oldUsername newUsername requestingUser m = some m') :
    Numbered m' := by
  obtain ⟨-, hmap⟩ := Option.ite_none_left_eq_some.mp hrename
  obtain ⟨account₀, haccount₀, rfl⟩ := Option.map_eq_some_iff.mp hmap
  generalize naming.normalize oldUsername = old at *
  generalize naming.normalize newUsername = new at *
  -- every account was there, the renamed one under its old name
  have hbefore : ∀ name account, ((m.users.erase old).set new account₀).get? name = some account →
      (name = new ∧ account = account₀) ∨
        (name ≠ old ∧ name ≠ new ∧ m.users.get? name = some account) := by
    intro name account haccount
    rw [Dict.get?_set, Dict.get?_erase] at haccount
    split at haccount
    · rename_i hname
      exact Or.inl ⟨hname, (Option.some.inj haccount).symm⟩
    · rename_i hnew
      split at haccount
      · cases haccount
      · rename_i hold
        exact Or.inr ⟨hold, hnew, haccount⟩
  constructor
  case below =>
    intro name account haccount
    rcases hbefore name account haccount with ⟨-, rfl⟩ | ⟨-, -, haccount⟩
    · exact h.below old account haccount₀
    · exact h.below name account haccount
  case distinct =>
    intro name name' account account' haccount haccount' hserial
    rcases hbefore name account haccount with ⟨rfl, rfl⟩ | ⟨hold, -, hthere⟩
    · rcases hbefore name' account' haccount' with ⟨rfl, -⟩ | ⟨hold', -, hthere'⟩
      · rfl
      · exact absurd (h.distinct old name' account account' haccount₀ hthere' hserial).symm hold'
    · rcases hbefore name' account' haccount' with ⟨-, rfl⟩ | ⟨-, -, hthere'⟩
      · exact absurd (h.distinct name old account account' hthere haccount₀ hserial) hold
      · exact h.distinct name name' account account' hthere hthere' hserial

theorem Numbered.of_users {m m' : Manager} (h : Numbered m) (husers : m'.users = m.users)
    (hcreated : m'.created = m.created) : Numbered m' := by
  obtain ⟨hbelow, hdistinct⟩ := h
  constructor
  · rw [husers, hcreated]
    exact hbelow
  · rw [husers]
    exact hdistinct

theorem Numbered.move {w w' : World} {label : Label} (h : Numbered w.manager)
    (hmove : Move naming w label w') : Numbered w'.manager := by
  cases hmove with
  | refused => exact h
  | created _ hcreate => exact h.createUser hcreate
  | deleted _ _ hdelete => exact h.deleteUser hdelete
  | renamed _ _ hrename => exact h.renameUser hrename
  | issued _ _ hcreate =>
    obtain ⟨account, -, rfl⟩ := Option.map_eq_some_iff.mp hcreate
    exact h.of_users rfl rfl
  | _ => exact h.of_users rfl rfl

/-- In every run, two accounts never have the same serial number. -/
theorem numbered_of_run {ok : World → Label → Prop} {w₀ w : World} (h : Numbered w₀.manager)
    (hrun : (threads naming).RunWhere ok w₀ w) : Numbered w.manager :=
  hrun.preserves (I := fun w => Numbered w.manager)
    (fun _ _ _ h _ hstep => h.move (move_of_step hstep)) h

end Pandamonium.Auth
