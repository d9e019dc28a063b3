import Pandamonium.Analysis.SessionPersistence

/-!
# Whom a token authenticates

A session has the name of its account, and names change hands.  `delete_user` and `rename_user`
free a name in one section and rewrite its sessions in a later one; a new account that takes the
name in between is authenticated by the sessions of the old one, and a rename then takes the
sessions of the new account with it (`not_own_capturedRename`).

`Owned` is what holds when no name is taken that still has sessions to be rewritten, and none is
freed that sessions are being rewritten to: a session has the name of its own account, or its
name is nobody's until the pending section has run.
-/

set_option autoImplicit false

namespace Pandamonium.Auth

open Pandamonium.Library

/-- A token authenticates the account it was issued for, and no other has its number. -/
def AuthenticatesOwn (m : Manager) : Prop :=
  ∀ token now account, authenticates m token now = some account →
    ∃ session, m.objects.get? token = some session ∧ account.serial = session.account ∧
      ∀ name account', m.users.get? name = some account' → account'.serial = session.account →
        account' = account

/-- The name whose sessions the call has still to rewrite. -/
def Call.freed : Call → Option String
  | .purge username => some username
  | .relabel oldUsername _ => some oldUsername
  | .save _ _ => none

/-- The name the call has still to give to sessions. -/
def Call.awaited : Call → Option String
  | .relabel _ newUsername => some newUsername
  | _ => none

/-- The sessions of the name are still to be rewritten. -/
def World.vacating (w : World) (name : String) : Prop :=
  ∃ call ∈ w.threads.values, call.freed = some name

/-- Sessions are still to be given the name. -/
def World.awaiting (w : World) (name : String) : Prop :=
  ∃ call ∈ w.threads.values, call.awaited = some name

instance (w : World) (name : String) : Decidable (w.vacating name) :=
  inferInstanceAs (Decidable (∃ call ∈ w.threads.values, _))

instance (w : World) (name : String) : Decidable (w.awaiting name) :=
  inferInstanceAs (Decidable (∃ call ∈ w.threads.values, _))

variable (naming : Naming)

/-- No account takes a name whose sessions are still to be rewritten, or gives up one that
sessions are still to be given. -/
def namesSettled (w : World) : Label → Prop
  | .createUser username passwordHash isAdmin now =>
    (createUser naming username passwordHash isAdmin now w.manager).isSome = true →
      ¬ w.vacating (naming.normalize username)
  | .deleteUser _ username requestingUser tokenStore =>
    (deleteUser naming username requestingUser tokenStore w.manager).isSome = true →
      ¬ w.awaiting (naming.normalize username)
  | .renameUser _ oldUsername newUsername requestingUser =>
    (renameUser naming oldUsername newUsername requestingUser w.manager).isSome = true →
      ¬ w.vacating (naming.normalize newUsername) ∧ ¬ w.awaiting (naming.normalize oldUsername)
  | _ => True

instance : DecidableRel (namesSettled naming) := fun _ label =>
  match label with
  | .createUser .. => inferInstanceAs (Decidable (_ → ¬ _))
  | .deleteUser .. => inferInstanceAs (Decidable (_ → ¬ _))
  | .renameUser .. => inferInstanceAs (Decidable (_ → ¬ _ ∧ ¬ _))
  | .createSessionTrusted .. => inferInstanceAs (Decidable True)
  | .validateToken .. => inferInstanceAs (Decidable True)
  | .revokeToken .. => inferInstanceAs (Decidable True)
  | .revokeUserSessions .. => inferInstanceAs (Decidable True)
  | .advance .. => inferInstanceAs (Decidable True)

variable {naming}

/-! ## Sessions -/

variable {manager m : Manager} {token name : String} {call : Call} {w : World} {thread : ℕ}

theorem session?_drop {p : String → Bool} {session : Session} :
    (m.drop p).session? token = some session ↔
      p token = false ∧ m.session? token = some session := by
  unfold Manager.session? Manager.drop
  by_cases hlive : token ∈ m.live <;> cases hp : p token <;> simp [hlive, hp]

theorem session?_relabel {oldUsername newUsername : String} :
    (m.relabel naming oldUsername newUsername).session? token =
      (m.session? token).map fun session =>
        if naming.normalize session.username = oldUsername then
          { session with username := newUsername }
        else session := by
  by_cases hlive : token ∈ m.live
  · have hsession : m.session? token = m.objects.get? token := if_pos hlive
    have hlive' : token ∈ (m.relabel naming oldUsername newUsername).live := hlive
    rw [Manager.session?, if_pos hlive', Manager.relabel, Dict.get?_mapItems, hsession]
    cases hobject : m.objects.get? token with
    | none => rfl
    | some session => simp [Manager.renamed, hsession, hobject]
  · have hlive' : token ∉ (m.relabel naming oldUsername newUsername).live := hlive
    rw [Manager.session?, if_neg hlive', Manager.session?, if_neg hlive]
    rfl

theorem mem_live_of_session? {session : Session} (h : m.session? token = some session) :
    token ∈ m.live :=
  (Option.ite_none_right_eq_some.mp h).1

theorem objects_of_session? {session : Session} (h : m.session? token = some session) :
    m.objects.get? token = some session :=
  (Option.ite_none_right_eq_some.mp h).2

/-- What the name of an authenticated session comes to. -/
theorem authenticates_eq_some {now : ℕ} {account : Account}
    (h : authenticates m token now = some account) :
    ∃ session, m.session? token = some session ∧ m.users.get? session.username = some account := by
  obtain ⟨username, hname, haccount⟩ := Option.bind_eq_some_iff.mp h
  have hcheck : check m token now = .valid username := by
    unfold getUsernameForToken at hname
    split at hname
    · rename_i name hvalid
      rw [hvalid, Option.some.inj hname]
    · cases hname
  unfold check at hcheck
  split at hcheck
  · cases hcheck
  · split at hcheck
    · cases hcheck
    · rename_i session hsession
      split at hcheck
      · cases hcheck
      · obtain rfl : session.username = username := by
          injection hcheck
        exact ⟨session, hsession, haccount⟩

/-! ## The invariant -/

variable (naming) in
structure Owned (w : World) : Prop where
  normal : ∀ token session, w.manager.session? token = some session →
    naming.normalize session.username = session.username
  /-- The account of the session's name is the session's own. -/
  own : ∀ token session account, w.manager.session? token = some session →
    w.manager.users.get? session.username = some account → account.serial = session.account
  /-- A session with a new name to come will have the name of its own account. -/
  moving : ∀ thread oldUsername newUsername token session,
    w.threads.get? thread = some (.relabel oldUsername newUsername) →
    w.manager.session? token = some session → session.username = oldUsername →
    ∃ account, w.manager.users.get? newUsername = some account ∧
      account.serial = session.account
  /-- A session whose name is nobody's is to be rewritten. -/
  placed : ∀ token session, w.manager.session? token = some session →
    (w.manager.users.get? session.username).isSome = true ∨
      ∃ thread call, w.threads.get? thread = some call ∧ call.freed = some session.username
  freed : ∀ thread call name, w.threads.get? thread = some call → call.freed = some name →
    w.manager.users.get? name = none
  awaited : ∀ thread call name, w.threads.get? thread = some call → call.awaited = some name →
    (w.manager.users.get? name).isSome = true ∧ naming.normalize name = name

theorem relabel_of_awaited (h : call.awaited = some name) :
    ∃ oldUsername, call = .relabel oldUsername name := by
  cases call with
  | relabel oldUsername newUsername =>
    cases h
    exact ⟨oldUsername, rfl⟩
  | purge username => cases h
  | save locked writing => cases h

/-- Sessions authenticate their own accounts. -/
theorem Owned.authenticatesOwn (h : Owned naming w) (hnumbered : Numbered w.manager) :
    AuthenticatesOwn w.manager := by
  intro token now account hauth
  obtain ⟨session, hsession, haccount⟩ := authenticates_eq_some hauth
  have hserial := h.own token session account hsession haccount
  refine ⟨session, objects_of_session? hsession, hserial, ?_⟩
  intro name account' haccount' hserial'
  obtain rfl : name = session.username :=
    hnumbered.distinct name session.username account' account haccount' haccount
      (hserial'.trans hserial.symm)
  rw [haccount] at haccount'
  exact (Option.some.inj haccount').symm

/-- Sessions may go, and calls that have nothing to rewrite may come and go. -/
theorem Owned.fewer {w' : World} (h : Owned naming w) (husers : w'.manager.users = w.manager.users)
    (hsessions : ∀ token session, w'.manager.session? token = some session →
      w.manager.session? token = some session)
    (hcalls : ∀ thread call name, w'.threads.get? thread = some call → call.freed = some name →
      w.threads.get? thread = some call)
    (hkept : ∀ thread call name, w.threads.get? thread = some call → call.freed = some name →
      w'.threads.get? thread = some call ∨
        ∀ token session, w'.manager.session? token = some session → session.username ≠ name) :
    Owned naming w' where
  normal := fun token session hsession => h.normal token session (hsessions token session hsession)
  own := by
    rw [husers]
    intro token session account hsession
    exact h.own token session account (hsessions token session hsession)
  moving := by
    rw [husers]
    intro thread oldUsername newUsername token session hcall hsession
    exact h.moving thread oldUsername newUsername token session (hcalls _ _ _ hcall rfl)
      (hsessions token session hsession)
  placed := by
    rw [husers]
    intro token session hsession
    rcases h.placed token session (hsessions token session hsession) with
      huser | ⟨thread, call, hcall, hfreed⟩
    · exact Or.inl huser
    · rcases hkept thread call session.username hcall hfreed with hcall' | hgone
      · exact Or.inr ⟨thread, call, hcall', hfreed⟩
      · exact absurd rfl (hgone token session hsession)
  freed := by
    rw [husers]
    intro thread call name hcall hfreed
    exact h.freed thread call name (hcalls thread call name hcall hfreed) hfreed
  awaited := by
    rw [husers]
    intro thread call name hcall hawaited
    obtain ⟨oldUsername, rfl⟩ := relabel_of_awaited hawaited
    exact h.awaited thread _ name (hcalls thread _ oldUsername hcall rfl) hawaited

/-- A thread ends what it had to rewrite, or goes on with a save. -/
theorem Owned.rewritten {w' : World} (h : Owned naming w) (thread : ℕ)
    (husers : w'.manager.users = w.manager.users)
    (hsessions : ∀ token session, w'.manager.session? token = some session →
      w.manager.session? token = some session)
    (hothers : ∀ t, t ≠ thread → w'.threads.get? t = w.threads.get? t)
    (hnext : ∀ call, w'.threads.get? thread = some call → call.freed = none)
    (hgone : ∀ call name, w.threads.get? thread = some call → call.freed = some name →
      ∀ token session, w'.manager.session? token = some session → session.username ≠ name) :
    Owned naming w' := by
  apply h.fewer husers hsessions
  · intro t call name hcall hfreed
    by_cases ht : t = thread
    · subst ht
      rw [hnext call hcall] at hfreed
      cases hfreed
    · rw [hothers t ht] at hcall
      exact hcall
  · intro t call name hcall hfreed
    by_cases ht : t = thread
    · subst ht
      exact Or.inr (hgone call name hcall hfreed)
    · exact Or.inl (by rw [hothers t ht]; exact hcall)

theorem after_get? (w : World) (thread : ℕ) (call : Call) (manager : Manager) (t : ℕ) :
    (w.after thread call manager).threads.get? t =
      if t = thread then some call else w.threads.get? t :=
  Dict.get?_set ..

/-- A thread that goes on with a save is to rewrite nothing. -/
theorem get?_of_after_save {t : ℕ} {locked : Bool} {writing : Writing (List String)}
    (hcall : (w.after thread (.save locked writing) manager).threads.get? t = some call)
    (hfreed : call.freed = some name) : w.threads.get? t = some call := by
  rw [after_get?] at hcall
  split at hcall
  · cases hcall
    cases hfreed
  · exact hcall

theorem returned_get? (w : World) (thread t : ℕ) :
    (w.returned thread).threads.get? t = if t = thread then none else w.threads.get? t :=
  Dict.get?_erase ..

/-- A thread with nothing to rewrite drops sessions and goes on with a save. -/
theorem Owned.saving {w' : World} (h : Owned naming w)
    (hbefore : ∀ call, w.threads.get? thread = some call → call.freed = none) {locked : Bool}
    {writing : Writing (List String)} (husers : manager.users = w.manager.users)
    (hsessions : ∀ token session, manager.session? token = some session →
      w.manager.session? token = some session)
    (hmanager : w'.manager = manager)
    (hthreads : w'.threads = (w.after thread (.save locked writing) manager).threads) :
    Owned naming w' := by
  apply h.rewritten thread
  · rw [hmanager, husers]
  · rw [hmanager]
    exact hsessions
  · intro t ht
    rw [hthreads, after_get?, if_neg ht]
  · intro call hcall
    rw [hthreads, after_get?, if_pos rfl] at hcall
    cases hcall
    rfl
  · intro call name hcall hfreed
    rw [hbefore call hcall] at hfreed
    cases hfreed

/-- A thread returns, with nothing left to rewrite. -/
theorem Owned.returning {w' : World} (h : Owned naming w) (hmanager : w'.manager = w.manager)
    (hthreads : w'.threads = (w.returned thread).threads)
    (hgone : ∀ call name, w.threads.get? thread = some call → call.freed = some name →
      ∀ token session, w.manager.session? token = some session → session.username ≠ name) :
    Owned naming w' := by
  apply h.rewritten thread
  · rw [hmanager]
  · rw [hmanager]
    exact fun _ _ hsession => hsession
  · intro t ht
    rw [hthreads, returned_get?, if_neg ht]
  · intro call hcall
    rw [hthreads, returned_get?, if_pos rfl] at hcall
    cases hcall
  · rw [hmanager]
    exact hgone

/-- What is gone is what the call of the thread had to rewrite. -/
theorem gone_of_freed (hcall : w.threads.get? thread = some call) (hfreed : call.freed = some name)
    (hgone : ∀ token session, m.session? token = some session → session.username ≠ name) :
    ∀ call' name', w.threads.get? thread = some call' → call'.freed = some name' →
      ∀ token session, m.session? token = some session → session.username ≠ name' := by
  intro call' name' hcall' hfreed'
  rw [hcall] at hcall'
  cases hcall'
  rw [hfreed] at hfreed'
  cases hfreed'
  exact hgone

theorem not_freed_of_save {locked : Bool} {writing : Writing (List String)}
    (h : w.threads.get? thread = some (.save locked writing)) :
    ∀ call, w.threads.get? thread = some call → call.freed = none := by
  intro call hcall
  rw [h] at hcall
  cases hcall
  rfl

theorem not_freed_of_idle (h : w.idle thread) :
    ∀ call, w.threads.get? thread = some call → call.freed = none := by
  intro call hcall
  rw [h] at hcall
  cases hcall

theorem ne_of_idle {t : ℕ} (h : w.idle thread) (hcall : w.threads.get? t = some call) :
    t ≠ thread := by
  rintro rfl
  rw [h] at hcall
  cases hcall

theorem not_vacating (h : ¬ w.vacating name) (hcall : w.threads.get? thread = some call) :
    call.freed ≠ some name :=
  fun hfreed => h ⟨call, (w.threads.mem_values_iff call).mpr ⟨thread, hcall⟩, hfreed⟩

theorem not_awaiting (h : ¬ w.awaiting name) (hcall : w.threads.get? thread = some call) :
    call.awaited ≠ some name :=
  fun hawaited => h ⟨call, (w.threads.mem_values_iff call).mpr ⟨thread, hcall⟩, hawaited⟩

section Moves

variable (h : Owned naming w)
include h

/-- No session has a name that is nobody's and that no call is to rewrite. -/
theorem Owned.unused (hfree : w.manager.users.get? name = none) (hsettled : ¬ w.vacating name)
    {session : Session} (hsession : w.manager.session? token = some session) :
    session.username ≠ name := by
  rintro rfl
  rcases h.placed token session hsession with huser | ⟨thread, call, hcall, hfreed⟩
  · rw [hfree] at huser
    cases huser
  · exact not_vacating hsettled hcall hfreed

/-! ## Steps -/

theorem Owned.createUser {username passwordHash : String} {isAdmin : Bool} {now : ℕ}
    (hcreate : createUser naming username passwordHash isAdmin now w.manager = some manager)
    (hsettled : ¬ w.vacating (naming.normalize username)) :
    Owned naming { w with manager := manager } := by
  obtain ⟨hnot, hmanager⟩ := Option.ite_none_left_eq_some.mp hcreate
  obtain rfl := Option.some.inj hmanager
  have hfree : w.manager.users.get? (naming.normalize username) = none := by
    rw [← Option.not_isSome_iff_eq_none]
    exact fun hsome => hnot (Or.inr (Or.inr hsome))
  constructor
  case normal => exact h.normal
  case own =>
    intro token session account hsession haccount
    have hne : session.username ≠ naming.normalize username := h.unused hfree hsettled hsession
    rw [Dict.get?_set, if_neg hne] at haccount
    exact h.own token session account hsession haccount
  case moving =>
    intro thread oldUsername newUsername token session hcall hsession hname
    obtain ⟨account, haccount, hserial⟩ :=
      h.moving thread oldUsername newUsername token session hcall hsession hname
    have hne : newUsername ≠ naming.normalize username := by
      rintro rfl
      rw [hfree] at haccount
      cases haccount
    exact ⟨account, by rw [Dict.get?_set, if_neg hne]; exact haccount, hserial⟩
  case placed =>
    intro token session hsession
    rw [Dict.get?_set]
    split
    · exact Or.inl rfl
    · exact h.placed token session hsession
  case freed =>
    intro thread call name hcall hfreed
    have hne : name ≠ naming.normalize username := by
      rintro rfl
      exact not_vacating hsettled hcall hfreed
    rw [Dict.get?_set, if_neg hne]
    exact h.freed thread call name hcall hfreed
  case awaited =>
    intro thread call name hcall hawaited
    obtain ⟨huser, hnormal⟩ := h.awaited thread call name hcall hawaited
    refine ⟨?_, hnormal⟩
    rw [Dict.get?_set]
    split
    · rfl
    · exact huser

theorem Owned.deleteUser (hidle : w.idle thread) {username requestingUser : String}
    {tokenStore : Bool}
    (hdelete : deleteUser naming username requestingUser tokenStore w.manager = some manager)
    (hsettled : ¬ w.awaiting (naming.normalize username)) :
    Owned naming (w.after thread (.purge (naming.normalize username)) manager) := by
  obtain ⟨-, hmanager⟩ := Option.ite_none_left_eq_some.mp hdelete
  obtain rfl := Option.some.inj hmanager
  have herased : ∀ name account,
      (w.manager.users.erase (naming.normalize username)).get? name = some account →
      w.manager.users.get? name = some account := by
    intro name account haccount
    rw [Dict.get?_erase] at haccount
    split at haccount
    · cases haccount
    · exact haccount
  constructor
  case normal => exact h.normal
  case own =>
    intro token session account hsession haccount
    exact h.own token session account hsession (herased _ _ haccount)
  case moving =>
    intro t oldUsername newUsername token session hcall hsession hname
    rw [after_get?] at hcall
    split at hcall
    · cases hcall
    · obtain ⟨account, haccount, hserial⟩ :=
        h.moving t oldUsername newUsername token session hcall hsession hname
      have hne : newUsername ≠ naming.normalize username := by
        rintro rfl
        exact not_awaiting hsettled hcall rfl
      refine ⟨account, ?_, hserial⟩
      show (w.manager.users.erase _).get? newUsername = some account
      rw [Dict.get?_erase, if_neg hne, haccount]
  case placed =>
    intro token session hsession
    by_cases hname : session.username = naming.normalize username
    · exact Or.inr ⟨thread, .purge (naming.normalize username), by rw [after_get?, if_pos rfl],
        by rw [hname]; rfl⟩
    · rcases h.placed token session hsession with huser | ⟨t, call, hcall, hfreed⟩
      · left
        show ((w.manager.users.erase _).get? session.username).isSome = true
        rw [Dict.get?_erase, if_neg hname]
        exact huser
      · refine Or.inr ⟨t, call, ?_, hfreed⟩
        rw [after_get?, if_neg (ne_of_idle hidle hcall), hcall]
  case freed =>
    intro t call name hcall hfreed
    show (w.manager.users.erase _).get? name = none
    rw [Dict.get?_erase]
    rw [after_get?] at hcall
    split at hcall
    · cases hcall
      cases hfreed
      rw [if_pos rfl]
    · split
      · rfl
      · exact h.freed t call name hcall hfreed
  case awaited =>
    intro t call name hcall hawaited
    rw [after_get?] at hcall
    split at hcall
    · cases hcall
      cases hawaited
    · have hne : name ≠ naming.normalize username := by
        rintro rfl
        exact not_awaiting hsettled hcall hawaited
      obtain ⟨huser, hnormal⟩ := h.awaited t call name hcall hawaited
      refine ⟨?_, hnormal⟩
      show ((w.manager.users.erase _).get? name).isSome = true
      rw [Dict.get?_erase, if_neg hne]
      exact huser

theorem Owned.renameUser (hidle : w.idle thread) {oldUsername newUsername requestingUser : String}
    (hrename : renameUser naming oldUsername newUsername requestingUser w.manager = some manager)
    (hsettled : ¬ w.vacating (naming.normalize newUsername))
    (hstable : ¬ w.awaiting (naming.normalize oldUsername)) :
    Owned naming (w.after thread
      (.relabel (naming.normalize oldUsername) (naming.normalize newUsername)) manager) := by
  obtain ⟨hnot, hmap⟩ := Option.ite_none_left_eq_some.mp hrename
  obtain ⟨account, haccount, rfl⟩ := Option.map_eq_some_iff.mp hmap
  have hfree : w.manager.users.get? (naming.normalize newUsername) = none := by
    rw [← Option.not_isSome_iff_eq_none]
    exact fun hsome => hnot (Or.inr (Or.inr (Or.inr (Or.inl hsome))))
  have hnormal := naming.normalize_normalize newUsername
  generalize naming.normalize oldUsername = old at *
  generalize naming.normalize newUsername = new at *
  have hne : new ≠ old := by
    rintro rfl
    rw [hfree] at haccount
    cases haccount
  have husers : ∀ name, ((w.manager.users.erase old).set new account).get? name =
      if name = new then some account else if name = old then none
        else w.manager.users.get? name := by
    intro name
    rw [Dict.get?_set, Dict.get?_erase]
  constructor
  case normal => exact h.normal
  case own =>
    intro token session account' hsession haccount'
    have hnew : session.username ≠ new := h.unused hfree hsettled hsession
    simp only [World.after, husers, if_neg hnew] at haccount'
    split at haccount'
    · cases haccount'
    · exact h.own token session account' hsession haccount'
  case moving =>
    intro t oldName newName token session hcall hsession hname
    rw [after_get?] at hcall
    simp only [World.after, husers]
    split at hcall
    · -- the sessions of the account that is renamed now
      injection hcall with hcall
      injection hcall with hold hnew
      subst hold hnew
      refine ⟨account, if_pos rfl, h.own token session account hsession ?_⟩
      rw [hname, haccount]
    · obtain ⟨account', haccount', hserial⟩ :=
        h.moving t oldName newName token session hcall hsession hname
      have hnew : newName ≠ new := by
        rintro rfl
        rw [hfree] at haccount'
        cases haccount'
      have hkept : newName ≠ old := by
        rintro rfl
        exact not_awaiting hstable hcall rfl
      exact ⟨account', by rw [if_neg hnew, if_neg hkept, haccount'], hserial⟩
  case placed =>
    intro token session hsession
    simp only [World.after, husers]
    by_cases hname : session.username = old
    · exact Or.inr ⟨thread, .relabel old new, by rw [Dict.get?_set_self], by rw [hname]; rfl⟩
    · rcases h.placed token session hsession with huser | ⟨t, call, hcall, hfreed⟩
      · left
        split
        · rfl
        · exact huser
      · refine Or.inr ⟨t, call, ?_, hfreed⟩
        rw [Dict.get?_set, if_neg (ne_of_idle hidle hcall), hcall]
  case freed =>
    intro t call name hcall hfreed
    rw [after_get?] at hcall
    simp only [World.after, husers]
    split at hcall
    · cases hcall
      cases hfreed
      rw [if_neg hne.symm, if_pos rfl]
    · have hnew : name ≠ new := by
        rintro rfl
        exact not_vacating hsettled hcall hfreed
      rw [if_neg hnew]
      split
      · rfl
      · exact h.freed t call name hcall hfreed
  case awaited =>
    intro t call name hcall hawaited
    rw [after_get?] at hcall
    simp only [World.after, husers]
    split at hcall
    · cases hcall
      cases hawaited
      exact ⟨by rw [if_pos rfl]; rfl, hnormal⟩
    · have hkept : name ≠ old := by
        rintro rfl
        exact not_awaiting hstable hcall hawaited
      obtain ⟨huser, hnormal'⟩ := h.awaited t call name hcall hawaited
      refine ⟨?_, hnormal'⟩
      split
      · rfl
      · exact huser

/-- A new session has the name and the serial number of an account that is there. -/
theorem Owned.createSession (hidle : w.idle thread) {username : String} {now : ℕ}
    (hcreate : createSessionTrusted naming username token now w.manager = some manager) :
    Owned naming (w.after thread (.save false .due) manager) := by
  obtain ⟨account, haccount, rfl⟩ := Option.map_eq_some_iff.mp hcreate
  let issued : Session :=
    { username := naming.normalize username, expiry := now + tokenTtl, account := account.serial }
  let manager : Manager :=
    { w.manager with
      objects := w.manager.objects.set token issued
      live := w.manager.live ++ [token] }
  have hcases : ∀ token' session, manager.session? token' = some session →
      session = issued ∨ w.manager.session? token' = some session := by
    intro token' session hsession
    have hlive := mem_live_of_session? hsession
    have hobject := objects_of_session? hsession
    simp only [manager, Dict.get?_set] at hobject
    split at hobject
    · exact Or.inl (Option.some.inj hobject).symm
    · rename_i hne
      rcases List.mem_append.mp hlive with hlive | hlive
      · right
        rw [Manager.session?, if_pos hlive, hobject]
      · exact absurd (List.mem_singleton.mp hlive) hne
  have hcalls : ∀ t call name, (w.after thread (.save false .due) manager).threads.get? t =
      some call → call.freed = some name → w.threads.get? t = some call :=
    fun _ _ _ hcall hfreed => get?_of_after_save hcall hfreed
  constructor
  case normal =>
    intro token' session hsession
    rcases hcases token' session hsession with rfl | hsession
    · exact naming.normalize_normalize username
    · exact h.normal token' session hsession
  case own =>
    intro token' session account' hsession haccount'
    rcases hcases token' session hsession with rfl | hsession
    · have hsame : w.manager.users.get? (naming.normalize username) = some account' := haccount'
      rw [haccount] at hsame
      rw [← Option.some.inj hsame]
    · exact h.own token' session account' hsession haccount'
  case moving =>
    intro t oldUsername newUsername token' session hcall hsession hname
    have hcall := hcalls t _ oldUsername hcall rfl
    rcases hcases token' session hsession with rfl | hsession
    · have hfree := h.freed t _ oldUsername hcall rfl
      have hsame : naming.normalize username = oldUsername := hname
      rw [← hsame, haccount] at hfree
      cases hfree
    · exact h.moving t oldUsername newUsername token' session hcall hsession hname
  case placed =>
    intro token' session hsession
    rcases hcases token' session hsession with rfl | hsession
    · left
      show (w.manager.users.get? (naming.normalize username)).isSome = true
      rw [haccount]
      rfl
    · rcases h.placed token' session hsession with huser | ⟨t, call, hcall, hfreed⟩
      · exact Or.inl huser
      · refine Or.inr ⟨t, call, ?_, hfreed⟩
        rw [after_get?, if_neg (ne_of_idle hidle hcall), hcall]
  case freed =>
    intro t call name hcall hfreed
    exact h.freed t call name (hcalls t call name hcall hfreed) hfreed
  case awaited =>
    intro t call name hcall hawaited
    obtain ⟨oldUsername, rfl⟩ := relabel_of_awaited hawaited
    exact h.awaited t _ name (hcalls t _ oldUsername hcall rfl) hawaited

/-- The sessions of a deleted account are dropped. -/
theorem Owned.purge {username : String} (hcall : w.threads.get? thread = some (.purge username)) :
    Owned naming (w.after thread (.save false .due)
      (w.manager.drop (w.manager.sessionsOf username))) := by
  apply h.rewritten thread
  · rfl
  · intro token session hsession
    exact (session?_drop.mp hsession).2
  · intro t ht
    rw [after_get?, if_neg ht]
  · intro call hnext
    rw [after_get?, if_pos rfl] at hnext
    cases hnext
    rfl
  · refine gone_of_freed hcall rfl ?_
    intro token session hsession
    obtain ⟨hkept, hsession⟩ := session?_drop.mp hsession
    simpa [Manager.sessionsOf, hsession] using hkept

/-- The sessions of a renamed account get its new name. -/
theorem Owned.relabel {oldUsername newUsername : String}
    (hcall : w.threads.get? thread = some (.relabel oldUsername newUsername)) :
    Owned naming (w.after thread (.save false .due)
      (w.manager.relabel naming oldUsername newUsername)) := by
  obtain ⟨hnew, hnormal⟩ := h.awaited thread _ newUsername hcall rfl
  have hcases : ∀ token session,
      (w.manager.relabel naming oldUsername newUsername).session? token = some session →
      ∃ before, w.manager.session? token = some before ∧ session.account = before.account ∧
        ((before.username = oldUsername ∧ session.username = newUsername) ∨
          (before.username ≠ oldUsername ∧ session = before)) := by
    intro token session hsession
    rw [session?_relabel] at hsession
    obtain ⟨before, hbefore, rfl⟩ := Option.map_eq_some_iff.mp hsession
    refine ⟨before, hbefore, ?_⟩
    rw [h.normal token before hbefore]
    split
    · rename_i hname
      exact ⟨rfl, Or.inl ⟨hname, rfl⟩⟩
    · rename_i hname
      exact ⟨rfl, Or.inr ⟨hname, rfl⟩⟩
  have hcalls : ∀ t call name, (w.after thread (.save false .due)
      (w.manager.relabel naming oldUsername newUsername)).threads.get? t = some call →
      call.freed = some name → w.threads.get? t = some call :=
    fun _ _ _ hcall hfreed => get?_of_after_save hcall hfreed
  constructor
  case normal =>
    intro token session hsession
    obtain ⟨before, hbefore, -, ⟨-, hname⟩ | ⟨-, rfl⟩⟩ := hcases token session hsession
    · rw [hname, hnormal]
    · exact h.normal token session hbefore
  case own =>
    intro token session account hsession haccount
    obtain ⟨before, hbefore, hsame, ⟨hold, hname⟩ | ⟨-, rfl⟩⟩ := hcases token session hsession
    · obtain ⟨account', haccount', hserial⟩ :=
        h.moving thread oldUsername newUsername token before hcall hbefore hold
      have hboth : w.manager.users.get? session.username = some account := haccount
      rw [hname, haccount'] at hboth
      rw [← Option.some.inj hboth, hserial, hsame]
    · exact h.own token session account hbefore haccount
  case moving =>
    intro t oldName newName token session hcall' hsession hname'
    have hcall' := hcalls t _ oldName hcall' rfl
    obtain ⟨before, hbefore, -, ⟨-, hname⟩ | ⟨-, rfl⟩⟩ := hcases token session hsession
    · -- the new name is an account's, so no call is to rewrite its sessions
      have hfree := h.freed t _ oldName hcall' rfl
      rw [← hname', hname] at hfree
      rw [hfree] at hnew
      cases hnew
    · exact h.moving t oldName newName token session hcall' hbefore hname'
  case placed =>
    intro token session hsession
    obtain ⟨before, hbefore, -, ⟨-, hname⟩ | ⟨hother, rfl⟩⟩ := hcases token session hsession
    · left
      rw [hname]
      exact hnew
    · rcases h.placed token session hbefore with huser | ⟨t, call, hcall', hfreed⟩
      · exact Or.inl huser
      · refine Or.inr ⟨t, call, ?_, hfreed⟩
        have ht : t ≠ thread := by
          rintro rfl
          rw [hcall] at hcall'
          cases hcall'
          exact hother (Option.some.inj hfreed).symm
        rw [after_get?, if_neg ht, hcall']
  case freed =>
    intro t call name hcall' hfreed
    exact h.freed t call name (hcalls t call name hcall' hfreed) hfreed
  case awaited =>
    intro t call name hcall' hawaited
    obtain ⟨oldName, rfl⟩ := relabel_of_awaited hawaited
    exact h.awaited t _ name (hcalls t _ oldName hcall' rfl) hawaited

end Moves

/-- Every step that leaves unsettled names alone keeps the sessions with their accounts. -/
theorem Owned.move {w' : World} {label : Label} (h : Owned naming w)
    (hsettled : namesSettled naming w label) (hmove : Move naming w label w') :
    Owned naming w' := by
  cases hmove with
  | refused => exact h
  | created hlabel hcreate =>
    subst hlabel
    simp only [namesSettled, hcreate] at hsettled
    exact h.createUser hcreate (hsettled rfl)
  | deleted hlabel hidle hdelete =>
    subst hlabel
    simp only [namesSettled, hdelete] at hsettled
    exact h.deleteUser hidle hdelete (hsettled rfl)
  | renamed hlabel hidle hrename =>
    subst hlabel
    simp only [namesSettled, hrename] at hsettled
    obtain ⟨hvacating, hawaiting⟩ := hsettled rfl
    exact h.renameUser hidle hrename hvacating hawaiting
  | issued hidle hfresh hcreate => exact h.createSession hidle hcreate
  | dropped hidle locked holder p =>
    refine h.saving (not_freed_of_idle hidle) ?_ ?_ rfl rfl
    · rfl
    · intro token session hsession
      exact (session?_drop.mp hsession).2
  | revoked hidle token =>
    refine h.saving (not_freed_of_idle hidle) ?_ ?_ rfl rfl
    · rfl
    · intro token' session hsession
      have hdropped : (w.manager.drop fun t => t = token).session? token' = some session := hsession
      exact (session?_drop.mp hdropped).2
  | purged hcall => exact h.purge hcall
  | nothingPurged hcall hnone =>
    refine h.returning rfl rfl (gone_of_freed hcall rfl ?_)
    rintro token session hsession rfl
    refine hnone (List.any_eq_true.mpr ⟨token, mem_live_of_session? hsession, ?_⟩)
    simp [Manager.sessionsOf, hsession]
  | relabelled hcall => exact h.relabel hcall
  | nothingRelabelled hcall hnone =>
    refine h.returning rfl rfl (gone_of_freed hcall rfl ?_)
    rintro token session hsession rfl
    refine hnone (List.any_eq_true.mpr ⟨token, mem_live_of_session? hsession, ?_⟩)
    simp [Manager.renamed, hsession, h.normal token session hsession]
  | taken hcall =>
    exact h.saving (not_freed_of_save hcall) rfl (fun _ _ hsession => hsession) rfl rfl
  | filled _ hcall =>
    exact h.saving (not_freed_of_save hcall) rfl (fun _ _ hsession => hsession) rfl rfl
  | replaced holder hcall =>
    refine h.returning rfl rfl ?_
    intro call name hcall' hfreed
    rw [not_freed_of_save hcall call hcall'] at hfreed
    cases hfreed

variable (naming) in
/-- Every session has the name of the account it was issued for. -/
structure RightlyNamed (m : Manager) : Prop where
  numbered : Numbered m
  normal : ∀ token session, m.session? token = some session →
    naming.normalize session.username = session.username
  issued : ∀ token session, m.session? token = some session →
    ∃ account, m.users.get? session.username = some account ∧ account.serial = session.account

theorem owned_started (hstart : Started w) (hnamed : RightlyNamed naming w.manager) :
    Owned naming w where
  normal := hnamed.normal
  own := by
    intro token session account hsession haccount
    obtain ⟨account', haccount', hserial⟩ := hnamed.issued token session hsession
    rw [haccount] at haccount'
    rw [Option.some.inj haccount', hserial]
  moving := by
    intro thread oldUsername newUsername token session hcall
    rw [hstart.threads thread] at hcall
    cases hcall
  placed := by
    intro token session hsession
    obtain ⟨account, haccount, -⟩ := hnamed.issued token session hsession
    left
    rw [haccount]
    rfl
  freed := by
    intro thread call name hcall
    rw [hstart.threads thread] at hcall
    cases hcall
  awaited := by
    intro thread call name hcall
    rw [hstart.threads thread] at hcall
    cases hcall

/-- In every run in which no account takes or gives up a name with sessions still to be
rewritten, a token authenticates the account it was issued for, and no other. -/
theorem authenticatesOwn_of_namesSettled {w₀ w : World} (hstart : Started w₀)
    (hnamed : RightlyNamed naming w₀.manager)
    (hrun : (threads naming).RunWhere (namesSettled naming) w₀ w) :
    AuthenticatesOwn w.manager := by
  have hnumbered : Numbered w.manager := numbered_of_run hnamed.numbered hrun
  have howned : Owned naming w :=
    hrun.preserves (fun _ _ _ h hsettled hstep => h.move hsettled (move_of_step hstep))
      (owned_started hstart hnamed)
  exact howned.authenticatesOwn hnumbered

/-! ## A name that is used again -/

theorem rightlyNamed_ownerOnly : RightlyNamed plain ownerOnly.manager where
  numbered := by
    have hone : ∀ name account, ownerOnly.manager.users.get? name = some account →
        name = "owner" ∧ account.serial = 0 := by
      intro name account haccount
      simp only [ownerOnly, Dict.get?_set] at haccount
      split at haccount
      · rename_i hname
        cases haccount
        exact ⟨hname, rfl⟩
      · cases haccount
    constructor
    · intro name account haccount
      rw [(hone name account haccount).2]
      exact Nat.one_pos
    · intro name name' account account' haccount haccount' _
      rw [(hone name account haccount).1, (hone name' account' haccount').1]
  normal := fun _ _ _ => rfl
  issued := by
    intro token session hsession
    cases mem_live_of_session? hsession

/-- `alice` becomes `bob`, and then another account is created as `alice` and has a session. -/
def renamedFirst : List Label :=
  [.createUser "alice" "$2b$12$alice" false 1500,
    .renameUser 1 "alice" "bob" "owner", .advance 1,
    .createUser "alice" "$2b$12$other" false 1600,
    .createSessionTrusted 2 "alice" "9a3c" 2000]

/-- The other account is created and has its session before the sessions are renamed. -/
def capturedRename : List Label :=
  [.createUser "alice" "$2b$12$alice" false 1500,
    .renameUser 1 "alice" "bob" "owner",
    .createUser "alice" "$2b$12$other" false 1600,
    .createSessionTrusted 2 "alice" "9a3c" 2000,
    .advance 1]

/-- The session of the second account authenticates it. -/
theorem authenticatesOwn_renamedFirst :
    ∃ w, (threads plain).exec (namesSettled plain) ownerOnly renamedFirst = some w ∧
      (authenticates w.manager "9a3c" 3000).map Account.serial = some 2 ∧
      AuthenticatesOwn w.manager := by
  obtain ⟨w, hw, hserial⟩ : ∃ w,
      (threads plain).exec (namesSettled plain) ownerOnly renamedFirst = some w ∧
      (authenticates w.manager "9a3c" 3000).map Account.serial = some 2 :=
    ⟨_, rfl, rfl⟩
  exact ⟨w, hw, hserial, authenticatesOwn_of_namesSettled started_ownerOnly rightlyNamed_ownerOnly
    (TransitionSystem.runWhere_of_exec hw)⟩

/-- The session of the second account is renamed with the first, and authenticates it. -/
theorem not_own_capturedRename :
    ∃ w₀ w, Started w₀ ∧ RightlyNamed plain w₀.manager ∧ (threads plain).Run w₀ w ∧
      ¬ AuthenticatesOwn w.manager := by
  obtain ⟨w, hw, hsession, hauth⟩ : ∃ w,
      (threads plain).exec TransitionSystem.anyStep ownerOnly capturedRename = some w ∧
      (w.manager.objects.get? "9a3c").map Session.account = some 2 ∧
      (authenticates w.manager "9a3c" 3000).map Account.serial = some 1 :=
    ⟨_, rfl, rfl, rfl⟩
  refine ⟨ownerOnly, w, started_ownerOnly, rightlyNamed_ownerOnly,
    TransitionSystem.runWhere_of_exec hw, ?_⟩
  intro hown
  obtain ⟨account, haccount, hone⟩ := Option.map_eq_some_iff.mp hauth
  obtain ⟨session, hobject, hsame, -⟩ := hown "9a3c" 3000 account haccount
  rw [hobject, Option.map_some, ← hsame, hone] at hsession
  cases hsession

end Pandamonium.Auth
