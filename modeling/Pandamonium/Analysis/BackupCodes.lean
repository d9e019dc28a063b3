import Pandamonium.Model.TwoFactor

/-!
# Backup codes

The codes of an enrolment are one list object, and removing a code that is gone raises, so no
code is accepted more often than it was generated, in any run (`singleUse_of_run`).  But a
verification keeps the list it got hold of: when another enrolment completes before it takes the
lock, it accepts a code of the old list and stores the old list over the new one
(`not_soundCodes_enrolledMeanwhile`).  `soundCodes_of_notEnrolledMeanwhile` is about the runs in
which that does not happen.
-/

set_option autoImplicit false

namespace Pandamonium.TwoFactor

open Pandamonium.Library

/-- How often a code of a list was accepted. -/
def World.uses (w : World) (codes : ℕ) (code : String) : ℕ :=
  w.accepted.countP fun a => a.codes = codes ∧ a.code = code

/-- Each code is accepted at most as often as its enrolment generated it, and none when a later
enrolment of the account has completed. -/
structure SoundCodes (w : World) : Prop where
  single : ∀ codes list code, w.lists[codes]? = some list →
    w.uses codes code ≤ list.generated.count code
  newest : ∀ a ∈ w.accepted, a.newest = some a.codes

/-- No enrolment of the account has completed since the verification got the list. -/
def notEnrolledMeanwhile (w : World) : Label → Prop
  | .advance thread _ =>
    match w.threads.get? thread with
    | some (.spending username _ _ _ since) => w.enrolment username = since
    | _ => True
  | _ => True

instance : DecidableRel notEnrolledMeanwhile := by
  intro w label
  unfold notEnrolledMeanwhile
  split
  · split <;> infer_instance
  · infer_instance

/-! ## What a step does -/

/-- The list a verification has got hold of, and the enrolment that was the last then. -/
def Call.held : Call → Option (ℕ × Option ℕ)
  | .looking _ _ _ codes since => some (codes, since)
  | .spending _ _ _ codes since => some (codes, since)
  | _ => none

/-- What the step `label` can make of the world. -/
inductive Move (w : World) (label : Label) : World → Prop
  | returned (thread : ℕ) (result : Bool) : Move w label (w.returned thread result)
  /-- A call begins, or is past its password or its code. -/
  | begun (thread : ℕ) {call : Call} (hheld : call.held = none) : Move w label (w.on thread call)
  /-- A verification gets hold of the codes of its account. -/
  | read (thread : ℕ) {username : String} (code secret : String) {user : User} {codes : ℕ}
    (huser : w.users.get? username = some user) (hcodes : user.totpBackupCodes = some codes) :
    Move w label (w.on thread (.looking username code secret codes (w.enrolment username)))
  /-- It has found the code among them. -/
  | found {thread : ℕ} {username code secret : String} {codes : ℕ} {since : Option ℕ}
    (hcall : w.threads.get? thread = some (.looking username code secret codes since)) :
    Move w label (w.on thread (.spending username code secret codes since))
  | spent {thread now : ℕ} {username code secret : String} {codes : ℕ} {since : Option ℕ}
    (hlabel : label = .advance thread now)
    (hcall : w.threads.get? thread = some (.spending username code secret codes since)) :
    Move w label (spend thread username code codes w)
  | generated (username secret : String) :
    Move w label (w.change username fun user => { user with totpSecretPending := some secret })
  | enabled (thread : ℕ) (username secret : String) (backup : List String) :
    Move w label (enable thread username secret backup w)
  | disabled (thread : ℕ) (username : String) : Move w label (disable thread username w)

variable {checks : Checks}

variable {w : World}

theorem move_of_goOn {w' : World} {thread now : ℕ} {call : Call}
    (hcall : w.threads.get? thread = some call) (hstep : goOn checks w thread now call = some w') :
    Move w (.advance thread now) w' := by
  cases call with
  | reading username code secret =>
    obtain rfl := Option.some.inj hstep
    cases hcodes : (w.users.get? username).bind User.totpBackupCodes with
    | none => exact .returned thread _
    | some codes =>
      obtain ⟨user, huser, hstored⟩ := Option.bind_eq_some_iff.mp hcodes
      exact .read thread code secret huser hstored
  | looking username code secret codes since =>
    obtain rfl := Option.some.inj hstep
    split
    · exact .found hcall
    · exact .returned thread _
  | spending username code secret codes since =>
    obtain rfl := Option.some.inj hstep
    exact .spent rfl hcall
  | confirming username secret => cases hstep
  | disabling username =>
    obtain rfl := Option.some.inj hstep
    exact .disabled thread username

theorem move_of_step {w' : World} {label : Label} (hstep : (threads checks).step w label = some w') :
    Move w label w' := by
  cases label with
  | totpGenerateSecret username secret =>
    obtain rfl := Option.some.inj hstep
    exact .generated _ secret
  | totpConfirmEnable thread username code now =>
    obtain ⟨-, hw⟩ := Option.ite_none_right_eq_some.mp hstep
    obtain rfl := Option.some.inj hw
    unfold totpConfirmEnable
    simp only
    split
    · exact .returned thread _
    · split
      · exact .begun thread rfl
      · exact .returned thread _
  | enable thread backup =>
    simp only [threads, step] at hstep
    split at hstep
    · rename_i username secret hcall
      obtain ⟨-, hw⟩ := Option.ite_none_right_eq_some.mp hstep
      obtain rfl := Option.some.inj hw
      exact .enabled thread username secret backup
    · cases hstep
  | totpVerify thread username code =>
    obtain ⟨-, hw⟩ := Option.ite_none_right_eq_some.mp hstep
    obtain rfl := Option.some.inj hw
    unfold totpVerify
    simp only
    split
    · exact .returned thread _
    · split
      · split
        · exact .returned thread _
        · exact .begun thread rfl
      · exact .returned thread _
  | totpDisable thread username password =>
    obtain ⟨-, hw⟩ := Option.ite_none_right_eq_some.mp hstep
    obtain rfl := Option.some.inj hw
    unfold totpDisable
    simp only
    split
    · exact .begun thread rfl
    · exact .returned thread _
  | advance thread now =>
    obtain ⟨call, hcall, hgo⟩ := Option.bind_eq_some_iff.mp hstep
    exact move_of_goOn hcall hgo

/-! ## Single use -/

/-- The codes that were accepted and those that are left are those that were generated. -/
structure Counted (w : World) : Prop where
  balance : ∀ codes list code, w.lists[codes]? = some list →
    w.uses codes code + list.remaining.count code = list.generated.count code
  known : ∀ a ∈ w.accepted, a.codes < w.lists.length

theorem counted_loaded (h : Loaded w) : Counted w where
  balance := by
    intro codes list code hlist
    rw [World.uses, h.accepted, h.lists list (List.mem_of_getElem? hlist)]
    exact Nat.zero_add _
  known := by
    intro a ha
    rw [h.accepted] at ha
    cases ha

theorem Counted.of_same {w' : World} (h : Counted w) (hlists : w'.lists = w.lists)
    (haccepted : w'.accepted = w.accepted) : Counted w' where
  balance := by
    unfold World.uses
    rw [hlists, haccepted]
    exact h.balance
  known := by
    rw [hlists, haccepted]
    exact h.known

/-- A new list has none of its codes accepted. -/
theorem Counted.enable (h : Counted w) (thread : ℕ) (username secret : String)
    (backup : List String) : Counted (TwoFactor.enable thread username secret backup w) where
  balance := by
    intro codes list code hlist
    have huses : (TwoFactor.enable thread username secret backup w).uses codes code =
        w.uses codes code := rfl
    have hlists : (w.lists ++ [{ generated := backup, remaining := backup }])[codes]? = some list :=
      hlist
    rw [huses]
    rcases Nat.lt_or_ge codes w.lists.length with hlt | hge
    · rw [List.getElem?_append_left hlt] at hlists
      exact h.balance codes list code hlists
    · rw [List.getElem?_append_right hge] at hlists
      have hnone : w.uses codes code = 0 := by
        rw [World.uses, List.countP_eq_zero]
        intro a ha hboth
        have hknown := h.known a ha
        have hcodes : a.codes = codes := (of_decide_eq_true hboth).1
        omega
      obtain rfl : { generated := backup, remaining := backup } = list := by
        cases hindex : codes - w.lists.length with
        | zero => simpa [hindex] using hlists
        | succ n =>
          rw [hindex] at hlists
          cases hlists
      rw [hnone, Nat.zero_add]
  known := by
    intro a ha
    have hlt := h.known a ha
    have hlength : (TwoFactor.enable thread username secret backup w).lists.length =
        w.lists.length + 1 := List.length_append
    omega

/-- A code that is accepted is taken out of its list. -/
theorem Counted.spend (h : Counted w) (thread : ℕ) (username code : String) (codes : ℕ) :
    Counted (TwoFactor.spend thread username code codes w) := by
  unfold TwoFactor.spend
  cases hlist : w.lists[codes]? with
  | none => exact h.of_same rfl rfl
  | some list =>
    have hlt : codes < w.lists.length := (List.getElem?_eq_some_iff.mp hlist).1
    simp only
    split
    · rename_i hmem
      constructor
      case balance =>
        intro codes' list' code' hlist'
        have hset : (w.lists.set codes
            { list with remaining := list.remaining.erase code })[codes']? = some list' := hlist'
        have huses : ∀ (newest : Option ℕ), List.countP
            (fun a => decide (a.codes = codes' ∧ a.code = code'))
            ({ code := code, codes := codes, newest := newest } :: w.accepted) =
            w.uses codes' code' + if codes = codes' ∧ code = code' then 1 else 0 := by
          intro newest
          rw [List.countP_cons]
          simp only [World.uses, decide_eq_true_eq]
        show List.countP _ (_ :: w.accepted) + _ = _
        rw [huses]
        by_cases hcodes : codes = codes'
        · subst hcodes
          rw [List.getElem?_set_self hlt] at hset
          cases hset
          have hbalance := h.balance codes list code' hlist
          simp only [true_and]
          by_cases hcode : code = code'
          · subst hcode
            have hpos : 0 < list.remaining.count code := List.count_pos_iff.mpr hmem
            rw [if_pos rfl, List.count_erase_self]
            omega
          · rw [if_neg hcode, List.count_erase_of_ne (Ne.symm hcode)]
            exact hbalance
        · rw [List.getElem?_set_ne hcodes] at hset
          rw [if_neg fun hboth => hcodes hboth.1]
          exact h.balance codes' list' code' hset
      case known =>
        intro a ha
        have hlength : (w.lists.set codes
            { list with remaining := list.remaining.erase code }).length = w.lists.length :=
          List.length_set
        show a.codes < (w.lists.set codes _).length
        rw [hlength]
        rcases List.mem_cons.mp ha with rfl | ha
        · exact hlt
        · exact h.known a ha
    · exact h.of_same rfl rfl

theorem Counted.move {w' : World} {label : Label} (h : Counted w) (hmove : Move w label w') :
    Counted w' := by
  cases hmove with
  | enabled thread username secret backup => exact h.enable thread username secret backup
  | spent hlabel hcall => exact h.spend _ _ _ _
  | _ => exact h.of_same rfl rfl

/-- In every run, no code is accepted more often than its enrolment generated it. -/
theorem singleUse_of_run {ok : World → Label → Prop} (hw : (threads checks).ReachableWhere ok w)
    {codes : ℕ} {list : CodeList} (hlist : w.lists[codes]? = some list) (code : String) :
    w.uses codes code ≤ list.generated.count code := by
  have hcounted : Counted w :=
    hw.invariant (fun _ h => counted_loaded h) fun _ _ _ h _ hstep => h.move (move_of_step hstep)
  have hbalance := hcounted.balance codes list code hlist
  omega

/-! ## The newest enrolment -/

/-- The codes of an account are of its last enrolment, and so is a list that a verification has
got hold of. -/
structure Current (w : World) : Prop where
  stored : ∀ username user codes, w.users.get? username = some user →
    user.totpBackupCodes = some codes → user.enrolment = some codes
  held : ∀ thread call codes since, w.threads.get? thread = some call →
    call.held = some (codes, since) → since = some codes
  newest : ∀ a ∈ w.accepted, a.newest = some a.codes

theorem current_loaded (h : Loaded w) : Current w where
  stored := by
    intro username user codes huser hcodes
    rw [h.codes username user huser, hcodes]
  held := by
    intro thread call codes since hcall
    rw [h.threads thread] at hcall
    cases hcall
  newest := by
    intro a ha
    rw [h.accepted] at ha
    cases ha

/-- A call goes on, with no list or one of the last enrolment. -/
theorem Current.on (h : Current w) (thread : ℕ) {call : Call}
    (hheld : ∀ codes since, call.held = some (codes, since) → since = some codes) :
    Current (w.on thread call) where
  stored := h.stored
  held := by
    intro t call' codes since hcall hcodes
    have hset : (w.threads.set thread call).get? t = some call' := hcall
    rw [Dict.get?_set] at hset
    split at hset
    · cases hset
      exact hheld codes since hcodes
    · exact h.held t call' codes since hset hcodes
  newest := h.newest

theorem Current.erase (h : Current w) (thread : ℕ) (results : List (ℕ × Bool)) :
    Current { w with threads := w.threads.erase thread, results := results } where
  stored := h.stored
  held := by
    intro t call codes since hcall
    have herase : (w.threads.erase thread).get? t = some call := hcall
    rw [Dict.get?_erase] at herase
    split at herase
    · cases herase
    · exact h.held t call codes since herase
  newest := h.newest

theorem Current.returned (h : Current w) (thread : ℕ) (result : Bool) :
    Current (w.returned thread result) :=
  h.erase thread _

theorem change_get? (w : World) (username name : String) (f : User → User) :
    (w.change username f).users.get? name =
      if name = username then (w.users.get? name).map f else w.users.get? name := by
  unfold World.change
  by_cases hname : name = username
  · subst hname
    cases huser : w.users.get? name <;> simp [huser]
  · cases huser : w.users.get? username <;> simp [Dict.get?_set, hname]

/-- A change after which the codes of the account are still of its last enrolment. -/
theorem Current.change (h : Current w) (username : String) {f : User → User}
    (hf : ∀ user codes, w.users.get? username = some user → (f user).totpBackupCodes = some codes →
      (f user).enrolment = some codes) :
    Current (w.change username f) where
  stored := by
    intro name user codes huser hcodes
    rw [change_get?] at huser
    split at huser
    · rename_i hname
      subst hname
      obtain ⟨before, hbefore, rfl⟩ := Option.map_eq_some_iff.mp huser
      exact hf before codes hbefore hcodes
    · exact h.stored name user codes huser hcodes
  held := h.held
  newest := h.newest

theorem Current.enable (h : Current w) (thread : ℕ) (username secret : String)
    (backup : List String) : Current (TwoFactor.enable thread username secret backup w) := by
  have hchange : Current (w.change username fun user =>
      { user with
        totpSecret := some secret
        totpEnabled := true
        totpSecretPending := none
        totpBackupCodes := some w.lists.length
        enrolment := some w.lists.length }) :=
    h.change username fun _ _ _ hcodes => hcodes
  obtain ⟨hstored, hheld, hnewest⟩ := hchange.returned thread true
  exact ⟨hstored, hheld, hnewest⟩

/-- A verification that no enrolment has overtaken accepts a code of the last one. -/
theorem Current.spend (h : Current w) (thread : ℕ) (username code : String) {codes : ℕ}
    (hnewest : w.enrolment username = some codes) :
    Current (TwoFactor.spend thread username code codes w) := by
  have hraised : Current (w.raised thread) := h.erase thread _
  unfold TwoFactor.spend
  split
  · exact hraised
  · split
    · have hchange : Current (w.change username fun user =>
          { user with totpBackupCodes := some codes }) := by
        apply h.change username
        intro user codes' huser hcodes
        rw [World.enrolment, huser, Option.bind_some] at hnewest
        cases hcodes
        exact hnewest
      obtain ⟨hstored, hheld, hold⟩ := hchange.returned thread true
      refine ⟨hstored, hheld, ?_⟩
      intro a ha
      rcases List.mem_cons.mp ha with rfl | ha
      · exact hnewest
      · exact hold a ha
    · exact hraised

/-- What a step does, unless it is the section of a verification that an enrolment overtook. -/
theorem Current.move {w' : World} {label : Label} (h : Current w)
    (hok : notEnrolledMeanwhile w label) (hmove : Move w label w') : Current w' := by
  cases hmove with
  | returned thread result => exact h.returned thread result
  | begun thread hheld =>
    apply h.on thread
    intro codes since hcodes
    rw [hheld] at hcodes
    cases hcodes
  | @read thread username code secret user codes huser hcodes =>
    apply h.on thread
    intro codes' since hheld
    cases hheld
    rw [World.enrolment, huser, Option.bind_some]
    exact h.stored username user codes huser hcodes
  | @found thread username code secret codes since hcall =>
    apply h.on thread
    intro codes' since' hheld
    cases hheld
    exact h.held thread _ codes since hcall rfl
  | @spent thread now username code secret codes since hlabel hcall =>
    have hsince := h.held thread _ codes since hcall rfl
    have hlast : w.enrolment username = since := by
      simpa [notEnrolledMeanwhile, hlabel, hcall] using hok
    exact h.spend thread username code (hlast.trans hsince)
  | generated username secret =>
    apply h.change
    intro user codes huser hcodes
    exact h.stored _ user codes huser hcodes
  | enabled thread username secret backup => exact h.enable thread username secret backup
  | disabled thread username =>
    apply Current.returned
    apply h.change username
    intro user codes _ hcodes
    cases hcodes

/-- In every run in which no enrolment of an account completes between a verification's reading
of its codes and its section, backup codes are used once and only while they are the newest. -/
theorem soundCodes_of_notEnrolledMeanwhile {w : World}
    (hw : (threads checks).ReachableWhere notEnrolledMeanwhile w) : SoundCodes w where
  single := fun _ _ code hlist => singleUse_of_run hw hlist code
  newest := by
    have hcurrent : Current w :=
      hw.invariant (fun _ h => current_loaded h) fun _ _ _ h hok hstep =>
        h.move hok (move_of_step hstep)
    exact hcurrent.newest

/-! ## A verification and an enrolment -/

/-- Passwords and codes are compared as they are. -/
def literally : Checks :=
  { naming := Auth.plain
    verifyTotp := fun secret code _ => secret ++ "-code" = code
    checkPassword := fun password hash => password = hash }

def firstCodes : List String :=
  ["11aa11aa", "22bb22bb", "33cc33cc", "44dd44dd", "55ee55ee", "66ff66ff", "77aa77aa", "88bb88bb"]

def laterCodes : List String :=
  ["a1a1a1a1", "b2b2b2b2", "c3c3c3c3", "d4d4d4d4", "e5e5e5e5", "f6f6f6f6", "a7a7a7a7", "b8b8b8b8"]

/-- The account `owner`, with two-factor authentication enabled. -/
def enrolledOwner : World :=
  { users := Dict.empty.set "owner"
      { passwordHash := "secret"
        totpSecret := some "OLD"
        totpSecretPending := none
        totpEnabled := true
        totpBackupCodes := some 0
        enrolment := some 0 }
    lists := [{ generated := firstCodes, remaining := firstCodes }]
    threads := Dict.empty
    accepted := []
    results := [] }

theorem loaded_enrolledOwner : Loaded enrolledOwner := by
  have hone : ∀ username user, enrolledOwner.users.get? username = some user →
      user.totpBackupCodes = some 0 ∧ user.enrolment = some 0 := by
    intro username user huser
    simp only [enrolledOwner, Dict.get?_set] at huser
    split at huser
    · cases huser
      exact ⟨rfl, rfl⟩
    · cases huser
  constructor
  case threads => exact fun _ => rfl
  case accepted => rfl
  case codes =>
    intro username user huser
    rw [(hone username user huser).1, (hone username user huser).2]
  case known =>
    intro username user codes huser hcodes
    rw [(hone username user huser).1] at hcodes
    cases hcodes
    exact Nat.one_pos
  case lists =>
    intro list hmem
    rw [List.mem_singleton.mp hmem]

/-- Two verifications of one code at the same time: one is accepted, the other raises. -/
def raced : List Label :=
  [.totpVerify 1 "owner" "22bb22bb", .totpVerify 2 "owner" "22bb22bb", .advance 1 0, .advance 2 0,
    .advance 1 0, .advance 2 0, .advance 1 0, .advance 2 0]

/-- A verification has found its code; the owner disables two-factor authentication and enrols
again, and the verification goes on. -/
def enrolledMeanwhile : List Label :=
  [.totpVerify 1 "owner" "22bb22bb", .advance 1 0, .advance 1 0,
    .totpDisable 2 "owner" "secret", .advance 2 0,
    .totpGenerateSecret "owner" "NEW", .totpConfirmEnable 2 "owner" "NEW-code" 0,
    .enable 2 laterCodes,
    .advance 1 0]

theorem soundCodes_raced :
    ∃ w, (threads literally).exec notEnrolledMeanwhile enrolledOwner raced = some w ∧
      w.results = [(1, true)] ∧ SoundCodes w := by
  obtain ⟨w, hw, hresults⟩ : ∃ w,
      (threads literally).exec notEnrolledMeanwhile enrolledOwner raced = some w ∧
      w.results = [(1, true)] :=
    ⟨_, rfl, rfl⟩
  exact ⟨w, hw, hresults, soundCodes_of_notEnrolledMeanwhile
    (TransitionSystem.reachableWhere_of_exec loaded_enrolledOwner hw)⟩

/-- In every interleaving a code is accepted once at most, where those of its list differ, and only
if it is one of them. -/
theorem singleUse_of_reachable (hw : (threads checks).Reachable w) {codes : ℕ} {list : CodeList}
    (hlist : w.lists[codes]? = some list) (hdistinct : list.generated.Nodup) (code : String) :
    w.uses codes code ≤ if code ∈ list.generated then 1 else 0 := by
  rw [← hdistinct.count]
  exact singleUse_of_run hw hlist code

theorem singleUse_raced : ∃ w : World, w.results = [(1, true)] ∧
    w.uses 0 "22bb22bb" ≤ if "22bb22bb" ∈ firstCodes then 1 else 0 := by
  obtain ⟨w, hw, hresults, hcodes⟩ : ∃ w,
      (threads literally).exec TransitionSystem.anyStep enrolledOwner raced = some w ∧
      w.results = [(1, true)] ∧ w.lists[0]?.map CodeList.generated = some firstCodes :=
    ⟨_, rfl, rfl, rfl⟩
  obtain ⟨list, hlist, hgenerated⟩ := Option.map_eq_some_iff.mp hcodes
  rw [← hgenerated]
  exact ⟨w, hresults, singleUse_of_reachable (TransitionSystem.reachableWhere_of_exec
    loaded_enrolledOwner hw) hlist (by rw [hgenerated]; decide) _⟩

/-- A code of the first enrolment is accepted after the second, and the account has the codes of
the first again. -/
theorem not_soundCodes_enrolledMeanwhile :
    ∃ w, (threads literally).Reachable w ∧
      (w.users.get? "owner").map User.totpBackupCodes = some (some 0) ∧ ¬ SoundCodes w := by
  obtain ⟨w, hw, hstored, haccepted⟩ : ∃ w,
      (threads literally).exec TransitionSystem.anyStep enrolledOwner enrolledMeanwhile = some w ∧
      (w.users.get? "owner").map User.totpBackupCodes = some (some 0) ∧
      w.accepted = [{ code := "22bb22bb", codes := 0, newest := some 1 }] :=
    ⟨_, rfl, rfl, rfl⟩
  refine ⟨w, TransitionSystem.reachableWhere_of_exec loaded_enrolledOwner hw, hstored, ?_⟩
  rintro ⟨-, hnewest⟩
  rw [haccepted] at hnewest
  have hsame := hnewest _ (List.mem_singleton_self _)
  cases hsame

end Pandamonium.TwoFactor
