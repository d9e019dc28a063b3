import Pandamonium.Model.AuthManager
import Mathlib.Data.List.Count

/-!
# An administrator remains

The one who deletes or renames an account is an administrator and is not deleted; a renamed one
keeps its record.  Only `set_admin` takes the role away, and only where there is another.
-/

set_option autoImplicit false

namespace Pandamonium.Auth

open Pandamonium.Library

variable {naming : Naming} {m m' : Manager} {r r' : Roles}

/-- There is an administrator. -/
def Manager.HasAdmin (m : Manager) : Prop := ∃ username, m.isAdmin username = true

theorem isAdmin_iff (username : String) :
    m.isAdmin username = true ↔ ∃ account, m.users.get? username = some account ∧
      account.isAdmin = true := by
  simp [Manager.isAdmin, Option.any_eq_true]

/-- An administrator whose record is left as it is remains one. -/
theorem isAdmin_of_get?_eq {username : String} (h : m.isAdmin username = true)
    (heq : m'.users.get? username = m.users.get? username) : m'.isAdmin username = true := by
  rw [Manager.isAdmin, heq]
  exact h

/-- A record of an administrator that is put in the table makes one. -/
theorem hasAdmin_of_set {users : Dict String Account} {username : String} {account : Account}
    (husers : m'.users = users.set username account) (hadmin : account.isAdmin = true) :
    m'.HasAdmin := by
  refine ⟨username, (isAdmin_iff username).mpr ⟨account, ?_, hadmin⟩⟩
  rw [husers, Dict.get?_set_self]

/-! ## One operation -/

theorem hasAdmin_createUser {username passwordHash : String} {isAdmin : Bool} {now : ℕ}
    (hcreate : createUser naming username passwordHash isAdmin now m = some m')
    (h : m.HasAdmin) : m'.HasAdmin := by
  obtain ⟨admin, hadmin⟩ := h
  obtain ⟨account, haccount, -⟩ := (isAdmin_iff admin).mp hadmin
  simp only [createUser, Option.ite_none_left_eq_some, Option.some.injEq] at hcreate
  obtain ⟨hallowed, rfl⟩ := hcreate
  have hne : naming.normalize username ≠ admin := by
    rintro rfl
    exact hallowed (.inr (.inr (by rw [haccount]; rfl)))
  refine ⟨admin, isAdmin_of_get?_eq hadmin ?_⟩
  rw [Dict.get?_set, if_neg (Ne.symm hne)]

theorem hasAdmin_setup {username passwordHash : String} {now : ℕ}
    (hsetup : setup naming username passwordHash now m = some m') (h : m.HasAdmin) :
    m'.HasAdmin := by
  simp only [setup, Option.ite_none_left_eq_some] at hsetup
  exact hasAdmin_createUser hsetup.2 h

/-- The one who asks is an administrator afterwards. -/
theorem hasAdmin_deleteUser {username requestingUser : String} {tokenStore : Bool}
    (hdelete : deleteUser naming username requestingUser tokenStore m = some m') :
    m'.HasAdmin := by
  simp only [deleteUser, Option.ite_none_left_eq_some, Option.some.injEq, not_or,
    Decidable.not_not] at hdelete
  obtain ⟨⟨-, hne, hadmin, -⟩, rfl⟩ := hdelete
  refine ⟨requestingUser, isAdmin_of_get?_eq hadmin ?_⟩
  rw [Dict.get?_erase, if_neg (Ne.symm hne)]

theorem hasAdmin_renameUser {oldUsername newUsername requestingUser : String}
    (hrename : renameUser naming oldUsername newUsername requestingUser m = some m') :
    m'.HasAdmin := by
  simp only [renameUser, Option.ite_none_left_eq_some, Option.map_eq_some_iff, not_or,
    Decidable.not_not, Option.not_isSome_iff_eq_none] at hrename
  obtain ⟨⟨-, -, -, hfree, hadmin⟩, account, haccount, rfl⟩ := hrename
  obtain ⟨record, hrecord, hisAdmin⟩ := (isAdmin_iff _).mp hadmin
  by_cases hself : naming.normalize requestingUser = naming.normalize oldUsername
  · -- The administrator renames its own account, and is found under the new name.
    rw [hself, haccount] at hrecord
    obtain rfl := Option.some.inj hrecord
    exact hasAdmin_of_set rfl hisAdmin
  · have hne : naming.normalize requestingUser ≠ naming.normalize newUsername := by
      intro heq
      rw [heq, hfree] at hrecord
      cases hrecord
    refine ⟨_, isAdmin_of_get?_eq hadmin ?_⟩
    rw [Dict.get?_set, if_neg hne, Dict.get?_erase, if_neg hself]

/-- Where more than one record is an administrator's, so is one of another name. -/
theorem exists_other_admin (h : ¬ m.adminCount ≤ 1) (username : String) :
    ∃ other, other ≠ username ∧ m.isAdmin other = true := by
  by_contra hnone
  have hsame : ∀ item ∈ m.users.items.filter (fun item => item.2.isAdmin),
      item.1 = username := by
    intro item hitem
    obtain ⟨hmem, hadmin⟩ := List.mem_filter.mp hitem
    by_contra hne
    have hget : m.users.get? item.1 = some item.2 := (m.users.mem_items_iff _ _).mp hmem
    exact hnone ⟨item.1, hne, (isAdmin_iff _).mpr ⟨item.2, hget, hadmin⟩⟩
  refine h ?_
  have hcount : m.adminCount =
      (m.users.items.filter fun item => item.2.isAdmin).length := by
    rw [Manager.adminCount, Dict.values, List.countP_map, List.countP_eq_length_filter]
    rfl
  have hnodup := Dict.nodup_filter (fun item => item.2.isAdmin) m.users.nodup
  have hsub : (m.users.items.filter fun item => item.2.isAdmin).map Prod.fst ⊆ [username] := by
    intro name hname
    obtain ⟨item, hitem, rfl⟩ := List.mem_map.mp hname
    exact List.mem_singleton.mpr (hsame item hitem)
  rw [hcount, ← List.length_map Prod.fst]
  exact (List.subperm_of_subset hnodup hsub).length_le

/-- The account that is demoted is not the only administrator's. -/
theorem hasAdmin_setAdmin {username requestingUser : String} {isAdmin : Bool}
    (h : r.manager.HasAdmin) :
    (setAdmin naming username isAdmin requestingUser r).2.manager.HasAdmin := by
  unfold setAdmin
  dsimp only
  cases htarget : r.manager.users.get? (naming.normalize username) with
  | none => exact h
  | some target =>
    dsimp only
    split_ifs with hasked hsame hpromotes hlast
    · exact h
    · exact hasAdmin_of_set rfl rfl
    · exact h
    · obtain ⟨other, hne, hother⟩ := exists_other_admin hlast (naming.normalize username)
      refine ⟨other, isAdmin_of_get?_eq hother ?_⟩
      rw [Roles.demote, Dict.get?_set, if_neg hne]
    · exact h

theorem hasAdmin_orRefused {answer : Option Manager} (h : r.manager.HasAdmin)
    (hanswer : ∀ m', answer = some m' → m'.HasAdmin) :
    (r.orRefused answer).manager.HasAdmin := by
  cases answer with
  | none => exact h
  | some m' => exact hanswer m' rfl

theorem hasAdmin_perform (request : RoleRequest) (h : r.manager.HasAdmin) :
    (r.perform naming request).manager.HasAdmin := by
  cases request with
  | setup username passwordHash now =>
    exact hasAdmin_orRefused h fun m' hsetup => hasAdmin_setup hsetup h
  | createUser username passwordHash isAdmin now =>
    exact hasAdmin_orRefused h fun m' hcreate => hasAdmin_createUser hcreate h
  | deleteUser username requestingUser tokenStore =>
    exact hasAdmin_orRefused h fun m' hdelete => hasAdmin_deleteUser hdelete
  | renameUser oldUsername newUsername requestingUser =>
    exact hasAdmin_orRefused h fun m' hrename => hasAdmin_renameUser hrename
  | setAdmin username isAdmin requestingUser => exact hasAdmin_setAdmin h

/-! ## Every run -/

/-- Once there is an administrator there always is one. -/
theorem hasAdmin_of_run (naming : Naming) (h : r.manager.HasAdmin)
    (hrun : (roles naming).Run r r') : r'.manager.HasAdmin := by
  refine TransitionSystem.RunWhere.preserves (I := fun r => r.manager.HasAdmin) ?_ hrun h
  intro r request r' hadmin _ hstep
  obtain rfl := Option.some.inj hstep
  exact hasAdmin_perform request hadmin

/-- The first administrator makes a second one, steps back and is renamed. -/
def handover : List RoleRequest :=
  [.createUser "mo" "h" false 2, .setAdmin "mo" true "ada", .setAdmin "ada" false "ada",
    .setAdmin "mo" false "mo", .renameUser "mo" "max" "mo"]

/-- The table after the setup. -/
def firstRun : Roles := Roles.new.perform plain (.setup "ada" "h" 1)

theorem hasAdmin_handover : firstRun.manager.HasAdmin ∧
    ((handover.foldl (fun r request => r.perform plain request) firstRun).manager.HasAdmin) := by
  have hfirst : firstRun.manager.HasAdmin := ⟨"ada", by decide +kernel⟩
  have hexec : (roles plain).exec (fun _ _ => True) firstRun handover =
      some (handover.foldl (fun r request => r.perform plain request) firstRun) := rfl
  exact ⟨hfirst, hasAdmin_of_run plain hfirst (TransitionSystem.runWhere_of_exec hexec)⟩

end Pandamonium.Auth
