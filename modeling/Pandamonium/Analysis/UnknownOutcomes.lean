import Pandamonium.Model.OperationalProtocol

/-!
# Outcomes that nobody knows

`unresolved_unknowns` looks at the end of the log only, and takes a call for resolved wherever in
it the recovery stands.  A result whose outcome is unknown and that nothing after it settles is
returned exactly where it is among the last events, and no recovery among them is for its call;
the events without a call id count as one call.
-/

set_option autoImplicit false

namespace Pandamonium.Operational

/-! ## The end of a list -/

section

variable {α : Type} {l before after : List α} {x : α} {m n : ℕ}

theorem length_rtake_le (n : ℕ) (l : List α) : (l.rtake n).length ≤ n := by
  rw [List.rtake, List.length_drop]
  omega

theorem exists_rtake_eq (h : l = before ++ x :: after) (hlength : after.length < n) :
    ∃ before', l.rtake n = before' ++ x :: after := by
  subst h
  refine ⟨before.drop ((before ++ x :: after).length - n), ?_⟩
  rw [List.rtake, List.drop_append_of_le_length]
  rw [List.length_append, List.length_cons]
  omega

theorem mem_rtake_iff : x ∈ l.rtake n ↔
    ∃ before after, l = before ++ x :: after ∧ after.length < n := by
  constructor
  · intro hmem
    obtain ⟨front, after, hsplit⟩ := List.append_of_mem hmem
    have hlength := length_rtake_le n l
    rw [hsplit, List.length_append, List.length_cons] at hlength
    refine ⟨l.take (l.length - n) ++ front, after, ?_, by omega⟩
    rw [List.append_assoc, ← hsplit, List.rtake, List.take_append_drop]
  · rintro ⟨before, after, h, hlength⟩
    obtain ⟨before', hsplit⟩ := exists_rtake_eq h hlength
    rw [hsplit]
    exact List.mem_append_right _ (List.mem_cons_self ..)

/-- The last of those that are selected from the last ones. -/
theorem mem_rtake_filter_rtake_iff {p : α → Bool} : x ∈ ((l.rtake m).filter p).rtake n ↔
    p x = true ∧ ∃ before after, l = before ++ x :: after ∧ after.length < m ∧
      (after.filter p).length < n := by
  constructor
  · intro hmem
    obtain ⟨front, behind, hsplit, hbehind⟩ := mem_rtake_iff.mp hmem
    obtain ⟨front', rest, hrtake, -, hrest⟩ := List.filter_eq_append_iff.mp hsplit
    obtain ⟨skipped, after, hrest', -, hx, hafter⟩ := List.filter_eq_cons_iff.mp hrest
    have hlength := length_rtake_le m l
    rw [hrtake, hrest', List.length_append, List.length_append, List.length_cons] at hlength
    refine ⟨hx, l.take (l.length - m) ++ (front' ++ skipped), after, ?_, by omega, ?_⟩
    · rw [List.append_assoc, List.append_assoc, ← hrest', ← hrtake, List.rtake,
        List.take_append_drop]
    · rw [hafter]
      exact hbehind
  · rintro ⟨hx, before, after, h, hafter, hselected⟩
    obtain ⟨before', hsplit⟩ := exists_rtake_eq h hafter
    refine mem_rtake_iff.mpr ⟨before'.filter p, after.filter p, ?_, hselected⟩
    rw [hsplit, List.filter_append, List.filter_cons_of_pos hx]

end

namespace EventStore

/-- A later event that says what became of a call: a recovery, or a result with an outcome. -/
def settles (row : Event) : Bool :=
  row.eventType = .recovery || (row.eventType = .result && row.status.definitive)

/-- The log has the result of a call whose outcome is unknown, and behind it nothing that settles
the same call. -/
def Unresolved (s : EventStore) (e : Event) : Prop :=
  isUnknown e = true ∧ ∃ before after, s.events = before ++ e :: after ∧
    ∀ row ∈ after, e.callId ≠ none → row.callId = e.callId → settles row = false

/-- The event is of the operator, among the last `max_events` events and the last thousand of the
operator. -/
def Recent (s : EventStore) (operatorId : Option String) (e : Event) : Prop :=
  matching operatorId e.operatorId = true ∧ ∃ before after, s.events = before ++ e :: after ∧
    after.length < s.maxEvents ∧
    (after.filter fun row => matching operatorId row.operatorId).length < 1000

/-- Every outcome that is unknown is reported to its operator. -/
def ReportsUnknowns (s : EventStore) (operatorId : Option String) : Prop :=
  ∀ e, s.Unresolved e → matching operatorId e.operatorId = true →
    e ∈ s.unresolvedUnknowns operatorId

theorem mem_query_iff (s : EventStore) (operatorId : Option String) (e : Event) :
    e ∈ s.query operatorId none none 1000 ↔ s.Recent operatorId e := by
  have hlimit : (min (max (1000 : ℤ) 1) 1000).toNat = 1000 := by decide
  have hmatching (value : Option String) : matching none value = true := by simp [matching]
  simp only [query, hlimit, hmatching, Bool.and_true]
  exact mem_rtake_filter_rtake_iff

theorem mem_unresolvedUnknowns_iff (s : EventStore) (operatorId : Option String) (e : Event) :
    e ∈ s.unresolvedUnknowns operatorId ↔
      s.Recent operatorId e ∧ isUnknown e = true ∧
        ∀ row, s.Recent operatorId row → recovers row = true → row.callId ≠ e.callId := by
  simp only [unresolvedUnknowns, List.mem_filter, mem_query_iff, Bool.and_eq_true,
    decide_eq_true_eq, List.mem_map, not_exists, not_and, and_imp, ne_eq]

/-- Every outcome that is unknown is reported exactly where each of them is recent, and no recent
recovery, older or for another call without an id, hides it. -/
theorem reportsUnknowns_iff (s : EventStore) (operatorId : Option String) :
    s.ReportsUnknowns operatorId ↔
      ∀ e, s.Unresolved e → matching operatorId e.operatorId = true →
        s.Recent operatorId e ∧
          ∀ row, s.Recent operatorId row → recovers row = true → row.callId ≠ e.callId := by
  refine forall_congr' fun e => forall_congr' fun hunresolved => forall_congr' fun _ => ?_
  rw [mem_unresolvedUnknowns_iff]
  constructor
  · rintro ⟨hrecent, -, hhidden⟩
    exact ⟨hrecent, hhidden⟩
  · rintro ⟨hrecent, hhidden⟩
    exact ⟨hrecent, hunresolved.1, hhidden⟩

/-- An event of a call. -/
def callEvent (eventId callId : String) (eventType : EventType) (status : EventStatus) : Event :=
  ⟨eventId, none, none, some callId, some "leo", eventType, status⟩

/-- A call that was reconciled once, and whose outcome is unknown again. -/
def recoveredBefore : EventStore where
  maxEvents := 10000
  events := [callEvent "e1" "call-1" .recovery (.outcome .failed),
    callEvent "e2" "call-1" .result (.outcome .unknown)]
  nodup := by decide

theorem not_reportsUnknowns_recoveredBefore :
    ¬ recoveredBefore.ReportsUnknowns (some "leo") := by
  intro h
  have hunresolved : recoveredBefore.Unresolved
      (callEvent "e2" "call-1" .result (.outcome .unknown)) :=
    ⟨rfl, [callEvent "e1" "call-1" .recovery (.outcome .failed)], [], rfl, by simp⟩
  have hmem := h _ hunresolved rfl
  have hempty : recoveredBefore.unresolvedUnknowns (some "leo") = [] := by decide
  rw [hempty] at hmem
  cases hmem

end EventStore

end Pandamonium.Operational
