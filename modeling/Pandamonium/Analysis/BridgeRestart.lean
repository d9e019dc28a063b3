import Pandamonium.Analysis.BridgeTasks

/-!
# The tasks of a bridge that was restarted

`_load_tasks` ends the tasks that were going on by their status alone: no event is appended to
their logs, and nothing is written.  So a task is over after a restart whatever was on disk, and the
same after the next restart, but its log ends with a terminal event only where it did on disk.  That
is where the task had come to its end, and its end was saved, before the bridge stopped.
-/

set_option autoImplicit false

namespace Pandamonium.CodexBridge

open Pandamonium.Library

variable {d : Data} {disk : Disk}

/-- A stream that begins at some event of the task has sent its last event after one turn, which is
terminal, and is ended. -/
def SeesEnd (d : Data) : Prop :=
  ∀ start : ℕ, start < d.events.length → ∃ r, (Reader.opened (start - 1)).poll d = some r ∧
    r.ended = true ∧ ∃ last, r.sent.getLast? = some last ∧ last.type.terminal = true

/-- A task is over, its log ends with a terminal event, and a stream of it ends having sent that. -/
structure Over (d : Data) : Prop where
  status : d.status.terminal = true
  log : EndsTerminal d.events
  seen : SeesEnd d

/-- Every task is over after a restart, and the same after another one. -/
structure Recovered (disk : Disk) : Prop where
  ended : ∀ id d, (restart disk).tasks.get? id = some d → Over d
  again : restart (restart disk).disk = restart disk

/-! ## What is loaded -/

theorem terminal_recovered (d : Data) : (recovered d).status.terminal = true := by
  rw [recovered]
  split
  case isTrue h => exact h
  case isFalse => rfl

/-- No event is appended to the log of a task that is loaded. -/
@[simp] theorem events_recovered (d : Data) : (recovered d).events = d.events := by
  rw [recovered]
  split
  · rfl
  · rfl

/-- A task that is loaded is loaded as it was the next time. -/
@[simp] theorem recovered_recovered (d : Data) : recovered (recovered d) = recovered d :=
  if_pos (terminal_recovered d)

/-- Every file that can be read gives its task, and no other does. -/
theorem get?_foldl_recovered {items : List (String × Option Data)}
    (hnodup : (items.map Prod.fst).Nodup) (tasks : Dict String Data) (id : String) :
    (items.foldl
      (fun tasks item =>
        match item.2 with
        | none => tasks
        | some d => tasks.set item.1 (recovered d)) tasks).get? id =
      match Dict.find id items with
      | some (some d) => some (recovered d)
      | _ => tasks.get? id := by
  induction items generalizing tasks with
  | nil => rfl
  | cons item items ih =>
    obtain ⟨id', file⟩ := item
    obtain ⟨hnot, hnodup⟩ := List.nodup_cons.mp hnodup
    rw [List.foldl_cons, ih hnodup]
    by_cases hid : id' = id
    · subst hid
      -- the id does not come again
      have hgone : Dict.find id' items = none := by
        rw [Option.eq_none_iff_forall_ne_some]
        intro file' hfile
        rw [Dict.find_eq_some_iff id' file' hnodup] at hfile
        exact hnot (List.mem_map.mpr ⟨(id', file'), hfile, rfl⟩)
      rw [hgone, Dict.find, if_pos rfl]
      cases file with
      | none => rfl
      | some d => exact Dict.get?_set_self _ _ _
    · rw [Dict.find, if_neg hid]
      cases file with
      | none => rfl
      | some d =>
        dsimp only
        rw [Dict.get?_set, if_neg (Ne.symm hid)]

theorem get?_restart (disk : Disk) (id : String) :
    (restart disk).tasks.get? id =
      match disk.get? id with
      | some (some d) => some (recovered d)
      | _ => none :=
  get?_foldl_recovered disk.nodup Dict.empty id

theorem get?_restart_eq_some {id : String} :
    (restart disk).tasks.get? id = some d ↔
      ∃ d₀, disk.get? id = some (some d₀) ∧ d = recovered d₀ := by
  rw [get?_restart]
  constructor
  · intro h
    split at h
    case h_1 d₀ hfile => exact ⟨d₀, hfile, (Option.some.inj h).symm⟩
    case h_2 => cases h
  · rintro ⟨d₀, hfile, rfl⟩
    rw [hfile]

/-! ## Which tasks are over -/

/-- One turn of a stream sends the events from its start, and ends it where the task is over. -/
theorem poll_opened (start : ℕ) (hover : d.status.terminal = true) :
    ∃ r, (Reader.opened (start - 1)).poll d = some r ∧ r.ended = true ∧
      r.sent = d.events.drop start := by
  have hreads : Reads d (.opened (start - 1)) start 0 := reads_opened (by omega)
  obtain ⟨r, hr, hsent, hended⟩ := hreads.delivered.polled
  refine ⟨r, hr, hended.mpr hover, ?_⟩
  rw [hsent, hreads.start]
  rfl

theorem seesEnd_of_endsTerminal (hover : d.status.terminal = true) (hlog : EndsTerminal d.events) :
    SeesEnd d := by
  intro start hstart
  obtain ⟨before, last, hevents, hlast⟩ := hlog
  obtain ⟨r, hr, hended, hsent⟩ := poll_opened start hover
  refine ⟨r, hr, hended, last, ?_, hlast⟩
  have hle : start ≤ before.length := by
    rw [hevents, List.length_append, List.length_singleton] at hstart
    omega
  rw [hsent, hevents, List.drop_append_of_le_length hle, List.getLast?_concat]

theorem over_recovered_iff : Over (recovered d) ↔ EndsTerminal d.events := by
  have hover := terminal_recovered d
  constructor
  · intro h
    have hlog := h.log
    rwa [events_recovered] at hlog
  · intro h
    have hlog : EndsTerminal (recovered d).events := by rwa [events_recovered]
    exact ⟨hover, hlog, seesEnd_of_endsTerminal hover hlog⟩

theorem over_restart_iff (disk : Disk) :
    (∀ id d, (restart disk).tasks.get? id = some d → Over d) ↔
      ∀ id d, disk.get? id = some (some d) → EndsTerminal d.events := by
  constructor
  · intro h id d hfile
    exact over_recovered_iff.mp (h id _ (get?_restart_eq_some.mpr ⟨d, hfile, rfl⟩))
  · intro h id d hd
    obtain ⟨d₀, hfile, rfl⟩ := get?_restart_eq_some.mp hd
    exact over_recovered_iff.mpr (h id d₀ hfile)

/-- Nothing is written when the tasks are loaded. -/
theorem restart_restart (disk : Disk) : restart (restart disk).disk = restart disk := rfl

/-- The tasks are over after a restart, with the end in their logs, exactly where every log that
can be read from disk ends with a terminal event. -/
theorem recovered_iff (disk : Disk) : Recovered disk ↔
    ∀ id d, disk.get? id = some (some d) → EndsTerminal d.events := by
  rw [← over_restart_iff]
  exact ⟨Recovered.ended, fun h => ⟨h, restart_restart disk⟩⟩

/-! ## What a crash leaves -/

theorem Closed.endsTerminal_iff (h : Closed d) :
    EndsTerminal d.events ↔ d.status.terminal = true := by
  constructor
  · rintro ⟨before, last, hevents, hlast⟩
    cases hover : d.status.terminal with
    | true => rfl
    | false =>
      have hmem : last ∈ d.events := by rw [hevents]; exact List.mem_concat_self
      rw [h.goingOn hover last hmem] at hlast
      cases hlast
  · intro hover
    obtain ⟨before, last, hevents, hlast, -⟩ := h.ended hover
    exact ⟨before, last, hevents, hlast⟩

/-- The file of a task is closed as the task is. -/
theorem closed_file_of_spares {w : Serving Store Frame}
    (hw : (service.system new).ReachableWhere (Service.under spares) w) : Closed w.store.file := by
  have hboth : Closed w.store.data ∧ Closed w.store.file := by
    refine (Service.invariant (I := fun s => Closed s.data ∧ Closed s.file)
      (J := fun _ _ => True) (fun s hs => ?_) (fun _ _ _ _ => trivial) ?_ hw).store
    · obtain ⟨eventId, text, rfl⟩ := hs
      exact ⟨closed_queued.event (.inr rfl), closed_queued.event (.inr rfl)⟩
    · intro s frame o s' next hclosed _ hspares h
      obtain ⟨effect, rfl, hharmless, -⟩ := advance_cases hspares h
      have hdata := closed_apply hclosed.1 hharmless
      refine ⟨⟨hdata, ?_⟩, fun _ _ => trivial, fun _ _ => trivial⟩
      cases effect with
      | saves => exact hclosed.1
      | appends eventId type text saved =>
        cases saved with
        | true => exact hdata
        | false => exact hclosed.2
      | nothing => exact hclosed.2
      | starts thread => exact hclosed.2
      | runs => exact hclosed.2
      | asks => exact hclosed.2
      | answers => exact hclosed.2
      | opens reader r => exact hclosed.2
      | sends reader r => exact hclosed.2
  exact hboth.2

/-- Where every file was left by a task that ran in order, the tasks are recovered exactly when
every one of them had ended, and was saved, before the bridge stopped. -/
theorem recovered_iff_of_spares
    (hdisk : ∀ id d, disk.get? id = some (some d) → ∃ w,
      (service.system new).ReachableWhere (Service.under spares) w ∧ w.store.file = d) :
    Recovered disk ↔ ∀ id d, disk.get? id = some (some d) → d.status.terminal = true := by
  have hlogs : (∀ id d, disk.get? id = some (some d) → EndsTerminal d.events) ↔
      ∀ id d, disk.get? id = some (some d) → d.status.terminal = true := by
    refine forall₃_congr fun id d hfile => ?_
    obtain ⟨w, hw, rfl⟩ := hdisk id d hfile
    exact (closed_file_of_spares hw).endsTerminal_iff
  rw [← hlogs, ← over_restart_iff]
  exact ⟨Recovered.ended, fun h => ⟨h, restart_restart disk⟩⟩

/-- The disk of a bridge that stopped after a task was created. -/
def interrupted : Disk := Dict.empty.set "t1" (some (created "e0" "accepted").file)

/-- The log of a task that was going on when the bridge stopped has no end. -/
theorem not_recovered_interrupted : ¬ Recovered interrupted := by
  intro h
  obtain ⟨before, last, hevents, hlast⟩ :=
    (over_restart_iff interrupted).mp h.ended "t1" _ (Dict.get?_set_self _ _ _)
  have hone : [(⟨0, "e0", .accepted, "accepted"⟩ : Event)] = before ++ [last] := hevents
  have hlast' := congrArg List.getLast? hone
  rw [List.getLast?_concat] at hlast'
  obtain rfl := Option.some.inj hlast'
  cases hlast

theorem recovered_interrupted_iff : Recovered interrupted ↔
    ∀ id d, interrupted.get? id = some (some d) → d.status.terminal = true := by
  refine recovered_iff_of_spares fun id d hfile => ?_
  rw [interrupted, Dict.get?_set] at hfile
  split at hfile
  · cases hfile
    exact ⟨⟨created "e0" "accepted", Dict.empty⟩, ⟨_, ⟨⟨_, _, rfl⟩, rfl⟩, .refl⟩, rfl⟩
  · cases hfile

end Pandamonium.CodexBridge
