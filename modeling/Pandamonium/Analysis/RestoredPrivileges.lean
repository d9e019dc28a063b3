import Pandamonium.Model.UserPrivileges

/-!
# What a user may do after a time as an administrator

Promotion puts the stored privileges aside, in the same row.  While the user is an administrator
nothing but `set_admin` writes either copy, and renaming moves the row as it is; so demotion gives
back what was put aside.
-/

set_option autoImplicit false

namespace Pandamonium.UserPrivileges

open Pandamonium.Library
open Pandamonium.Auth (Naming SetAdminResult plain)

variable {naming : Naming} {users users' : Users} {username username' : String} {before : Object}

section Following

variable (naming)

/-- The name under which an administrator goes on after a request, `none` where it is deleted or
demoted. -/
def goesOn (users : Users) (username : String) : Request → Option String
  | .deleteUser name requestingUser tokenStore =>
    if deletes naming name requestingUser tokenStore users ∧ naming.normalize name = username then
      none
    else some username
  | .renameUser oldUsername newUsername requestingUser =>
    if renames naming oldUsername newUsername requestingUser users ∧
        naming.normalize oldUsername = username then
      some (naming.normalize newUsername)
    else some username
  | .setAdmin name false requestingUser =>
    if (setAdmin naming name false requestingUser users).1 = .ok ∧
        naming.normalize name = username then
      none
    else some username
  | _ => some username

/-- The table after some requests and the name of the administrator by then, who is neither deleted
nor demoted by them. -/
def follow (users : Users) (username : String) : List Request → Option (Users × String)
  | [] => some (users, username)
  | request :: requests =>
    (goesOn naming users username request).bind fun username' =>
      follow (perform naming users request) username' requests

end Following

/-! ## The two copies -/

theorem orDefault_ne_nil (stored : Option Object) : orDefault stored ≠ [] := by
  unfold orDefault
  split
  · exact List.cons_ne_nil _ _
  · exact List.cons_ne_nil _ _
  · rename_i hne
    exact hne

theorem orDefault_some_orDefault (stored : Option Object) :
    orDefault (some (orDefault stored)) = orDefault stored := by
  obtain ⟨item, items, hcons⟩ := List.exists_cons_of_ne_nil (orDefault_ne_nil stored)
  rw [hcons]
  rfl

theorem merge_defaultPrivileges : merge defaultPrivileges defaultPrivileges = defaultPrivileges :=
  rfl

/-- The defaults in place of nothing make no difference beside the defaults. -/
theorem merge_orDefault (stored : Option Object) :
    merge defaultPrivileges (orDefault stored) = merge defaultPrivileges (stored.getD []) := by
  unfold orDefault
  split
  · exact merge_defaultPrivileges
  · exact merge_defaultPrivileges
  · rfl

/-- A plain user who is promoted and demoted may do what it could. -/
theorem getPrivileges_demoted {user user' : User} (hplain : user.isAdmin = false)
    (hbefore : user'.privilegesBeforeAdmin = some (orDefault user.privileges)) :
    user'.demoted.getPrivileges = user.getPrivileges := by
  have hdemoted : user'.demoted.getPrivileges =
      merge defaultPrivileges (orDefault (some (orDefault user.privileges))) := by
    rw [← hbefore]
    rfl
  rw [hdemoted, orDefault_some_orDefault, merge_orDefault, User.getPrivileges, if_neg]
  rw [hplain]
  exact Bool.false_ne_true

/-! ## The time between -/

/-- The user is an administrator with these privileges put aside. -/
def Stint (before : Object) (users : Users) (username : String) : Prop :=
  ∃ user, users.get? username = some user ∧ user.isAdmin = true ∧
    user.privilegesBeforeAdmin = some before

theorem Stint.of_get? (h : Stint before users username)
    (heq : users'.get? username = users.get? username) : Stint before users' username := by
  obtain ⟨user, hget, hrest⟩ := h
  exact ⟨user, heq.trans hget, hrest⟩

variable {name requestingUser : String}

section Requests

variable (h : Stint before users username)
include h

theorem Stint.set_of_ne (hne : name ≠ username) (user : User) :
    Stint before (users.set name user) username := by
  refine h.of_get? ?_
  rw [Dict.get?_set, if_neg (Ne.symm hne)]

theorem Stint.createUser {passwordHash : String} {isAdmin : Bool} {now : ℕ} :
    Stint before (createUser naming name passwordHash isAdmin now users) username := by
  unfold UserPrivileges.createUser
  dsimp only
  split
  · exact h
  · rename_i hfree
    refine h.set_of_ne (fun heq => hfree (.inr (.inr ?_))) _
    obtain ⟨user, hget, -⟩ := h
    rw [heq, hget]
    rfl

theorem Stint.setCredentials {change : Credentials → Credentials} :
    Stint before (setCredentials naming name change users) username := by
  unfold UserPrivileges.setCredentials
  dsimp only
  split
  · exact h
  · rename_i user hget
    by_cases hsame : naming.normalize name = username
    · obtain ⟨user', hget', hadmin, hbefore⟩ := h
      rw [hsame, hget'] at hget
      obtain rfl := Option.some.inj hget
      rw [hsame]
      exact ⟨_, Dict.get?_set_self _ _ _, hadmin, hbefore⟩
    · exact h.set_of_ne hsame _

theorem Stint.setCredentials_if (verified : Bool) {change : Credentials → Credentials} :
    Stint before
      (if verified then UserPrivileges.setCredentials naming name change users else users)
      username := by
  split
  · exact h.setCredentials
  · exact h

theorem Stint.setPrivileges {privileges : Object} :
    Stint before (setPrivileges naming name privileges users) username := by
  unfold UserPrivileges.setPrivileges
  dsimp only
  split
  · exact h
  · rename_i user hget
    split
    · exact h
    · rename_i hplain
      refine h.set_of_ne (fun heq => hplain ?_) _
      obtain ⟨user', hget', hadmin, -⟩ := h
      rw [heq, hget'] at hget
      rwa [← Option.some.inj hget]

theorem Stint.deleteUser {tokenStore : Bool} (hgoes : goesOn naming users username
      (.deleteUser name requestingUser tokenStore) = some username') :
    Stint before (deleteUser naming name requestingUser tokenStore users) username' := by
  simp only [goesOn] at hgoes
  split at hgoes
  · cases hgoes
  · rename_i hstays
    obtain rfl := Option.some.inj hgoes
    unfold UserPrivileges.deleteUser
    split
    · rename_i hdeletes
      refine h.of_get? ?_
      rw [Dict.get?_erase, if_neg fun heq => hstays ⟨hdeletes, heq.symm⟩]
    · exact h

theorem Stint.renameUser {oldUsername newUsername : String} (hgoes : goesOn naming users username
      (.renameUser oldUsername newUsername requestingUser) = some username') :
    Stint before (renameUser naming oldUsername newUsername requestingUser users) username' := by
  unfold UserPrivileges.renameUser
  simp only [goesOn] at hgoes
  cases hold : users.get? (naming.normalize oldUsername) with
  | none =>
    rw [if_neg fun hrenames => ?_] at hgoes
    · obtain rfl := Option.some.inj hgoes
      exact h
    · obtain ⟨user, hget, -⟩ := h
      rw [hrenames.2, hget] at hold
      cases hold
  | some user =>
    dsimp only
    by_cases hrenames : renames naming oldUsername newUsername requestingUser users = true
    · rw [if_pos hrenames]
      by_cases hsame : naming.normalize oldUsername = username
      · -- the row moves to the new name
        rw [if_pos ⟨hrenames, hsame⟩] at hgoes
        obtain rfl := Option.some.inj hgoes
        obtain ⟨user', hget, hadmin, hbefore⟩ := h
        rw [hsame, hget] at hold
        obtain rfl := Option.some.inj hold
        exact ⟨user', Dict.get?_set_self _ _ _, hadmin, hbefore⟩
      · rw [if_neg fun hboth => hsame hboth.2] at hgoes
        obtain rfl := Option.some.inj hgoes
        have hfree : (users.get? (naming.normalize newUsername)).isNone = true := by
          simp only [renames, Bool.and_eq_true] at hrenames
          exact hrenames.1.2
        have hne : naming.normalize newUsername ≠ username := by
          obtain ⟨user', hget, -⟩ := h
          rintro heq
          rw [heq, hget] at hfree
          cases hfree
        refine Stint.set_of_ne (h.of_get? ?_) hne _
        rw [Dict.get?_erase, if_neg fun heq => hsame heq.symm]
    · rw [if_neg hrenames]
      rw [if_neg fun hboth => hrenames hboth.1] at hgoes
      obtain rfl := Option.some.inj hgoes
      exact h

theorem Stint.setAdmin {isAdmin : Bool} (hgoes : goesOn naming users username
      (.setAdmin name isAdmin requestingUser) = some username') :
    Stint before (setAdmin naming name isAdmin requestingUser users).2 username' := by
  have hname : username' = username := by
    cases isAdmin with
    | true => exact (Option.some.inj hgoes).symm
    | false =>
      simp only [goesOn] at hgoes
      split at hgoes
      · cases hgoes
      · exact (Option.some.inj hgoes).symm
  subst hname
  by_cases hsame : naming.normalize name = username'
  · -- the user is an administrator, so only a demotion would change the row
    obtain ⟨user, hget, hadmin, hbefore⟩ := h
    cases isAdmin with
    | true =>
      have hleft : (UserPrivileges.setAdmin naming name true requestingUser users).2 = users := by
        simp only [UserPrivileges.setAdmin, hsame, hget, hadmin, if_true]
        split <;> rfl
      rw [hleft]
      exact ⟨user, hget, hadmin, hbefore⟩
    | false =>
      have hrefused : (UserPrivileges.setAdmin naming name false requestingUser users).1 ≠ .ok := by
        intro hok
        simp only [goesOn, hok, hsame, true_and, if_true] at hgoes
        cases hgoes
      have hleft : (UserPrivileges.setAdmin naming name false requestingUser users).2 = users := by
        simp only [UserPrivileges.setAdmin, hsame, hget, hadmin, Bool.true_eq_false, if_false,
          Bool.false_eq_true] at hrefused ⊢
        split at hrefused
        · rename_i hrequester
          rw [if_pos hrequester]
        · split at hrefused
          · rename_i hrequester hlast
            rw [if_neg hrequester, if_pos hlast]
          · exact absurd rfl hrefused
      rw [hleft]
      exact ⟨user, hget, hadmin, hbefore⟩
  · unfold UserPrivileges.setAdmin
    dsimp only
    split
    · exact h
    · split
      · exact h
      · split
        · exact h
        · split
          · exact h.set_of_ne hsame _
          · split
            · exact h
            · exact h.set_of_ne hsame _

end Requests

/-- No request but a demotion takes what was put aside from an administrator. -/
theorem Stint.perform (h : Stint before users username) {request : Request}
    (hgoes : goesOn naming users username request = some username') :
    Stint before (perform naming users request) username' := by
  cases request with
  | deleteUser => exact h.deleteUser hgoes
  | renameUser => exact h.renameUser hgoes
  | setAdmin => exact h.setAdmin hgoes
  | setup =>
    obtain rfl := Option.some.inj hgoes
    show Stint before (UserPrivileges.setup naming _ _ _ users) username
    unfold UserPrivileges.setup
    split
    · exact h
    · exact h.createUser
  | createUser =>
    obtain rfl := Option.some.inj hgoes
    exact h.createUser
  | setPrivileges =>
    obtain rfl := Option.some.inj hgoes
    exact h.setPrivileges
  | changePassword _ verified =>
    obtain rfl := Option.some.inj hgoes
    exact h.setCredentials_if verified
  | totpGenerateSecret =>
    obtain rfl := Option.some.inj hgoes
    exact h.setCredentials
  | totpConfirmEnable _ _ verified =>
    obtain rfl := Option.some.inj hgoes
    exact h.setCredentials_if verified
  | totpVerify =>
    obtain rfl := Option.some.inj hgoes
    exact h.setCredentials
  | totpDisable _ verified =>
    obtain rfl := Option.some.inj hgoes
    exact h.setCredentials_if verified

theorem Stint.follow (h : Stint before users username) {requests : List Request}
    (hfollow : follow naming users username requests = some (users', username')) :
    Stint before users' username' := by
  induction requests generalizing users username with
  | nil =>
    obtain ⟨rfl, rfl⟩ := Prod.mk.inj (Option.some.inj hfollow)
    exact h
  | cons request requests ih =>
    obtain ⟨name, hgoes, hrest⟩ := Option.bind_eq_some_iff.mp hfollow
    exact ih (h.perform hgoes) hrest

/-! ## A promotion and the next demotion -/

theorem users_of_promotion {user : User} (hget : users.get? (naming.normalize name) = some user)
    (hplain : user.isAdmin = false) (hok : (setAdmin naming name true requestingUser users).1 = .ok) :
    (setAdmin naming name true requestingUser users).2 =
      users.set (naming.normalize name) user.promoted := by
  simp only [setAdmin, hget, hplain, Bool.false_eq_true, if_false, if_true] at hok ⊢
  split at hok
  · cases hok
  · rename_i hrequester
    rw [if_neg hrequester]

/-- The row of an administrator who is demoted. -/
theorem users_of_demotion {user : User} (hget : users.get? (naming.normalize name) = some user)
    (hadmin : user.isAdmin = true) (hok : (setAdmin naming name false requestingUser users).1 = .ok) :
    (setAdmin naming name false requestingUser users).2 =
      users.set (naming.normalize name) user.demoted := by
  simp only [setAdmin, hget, hadmin, Bool.true_eq_false, Bool.false_eq_true, if_false] at hok ⊢
  split at hok
  · cases hok
  · rename_i hrequester
    split at hok
    · cases hok
    · rename_i hmany
      rw [if_neg hrequester, if_neg hmany]

/-- A plain user is promoted; whatever requests come then, the next demotion gives back what the user
could do before, under the name that the user has by then. -/
theorem getPrivileges_of_demotion (naming : Naming) {users users' : Users}
    {name name' promoter demoter username : String} {user : User} {requests : List Request}
    (hget : users.get? (naming.normalize name) = some user) (hplain : user.isAdmin = false)
    (hpromoted : (setAdmin naming name true promoter users).1 = .ok)
    (hfollow : follow naming (setAdmin naming name true promoter users).2 (naming.normalize name)
      requests = some (users', username))
    (hname : naming.normalize name' = username)
    (hdemoted : (setAdmin naming name' false demoter users').1 = .ok) :
    getPrivileges (setAdmin naming name' false demoter users').2 username =
      getPrivileges users (naming.normalize name) := by
  rw [users_of_promotion hget hplain hpromoted] at hfollow
  have hstint : Stint (orDefault user.privileges)
      (users.set (naming.normalize name) user.promoted) (naming.normalize name) :=
    ⟨user.promoted, Dict.get?_set_self _ _ _, rfl, rfl⟩
  obtain ⟨user', hget', hadmin, hbefore⟩ := hstint.follow hfollow
  subst hname
  rw [users_of_demotion hget' hadmin hdemoted]
  simp only [getPrivileges, Dict.get?_set_self, hget]
  exact getPrivileges_demoted hplain hbefore

/-! ## A user who is renamed meanwhile -/

/-- An administrator and a user with one privilege stored. -/
def someUsers : Users :=
  ((Dict.empty : Users).set "root"
      ⟨⟨"hash", none, none, false, []⟩, 0, true, some adminPrivileges, none⟩).set "ann"
    ⟨⟨"hash", none, none, false, []⟩, 0, false, some [("can_use_browser", .bool false)], none⟩

/-- What may come between. -/
def someRequests : List Request :=
  [.setPrivileges "ann" [("can_use_bash", .bool true)], .renameUser "ann" "anna" "root",
    .createUser "ann" "hash" false 1, .setAdmin "anna" false "ann"]

/-- The users after them. -/
def laterUsers : Users :=
  ((follow plain (setAdmin plain "ann" true "root" someUsers).2 "ann" someRequests).map
    Prod.fst).getD someUsers

theorem getPrivileges_renamed :
    (follow plain (setAdmin plain "ann" true "root" someUsers).2 "ann" someRequests).isSome ∧
    getPrivileges (setAdmin plain "anna" false "root" laterUsers).2 "anna" =
      getPrivileges someUsers "ann" :=
  ⟨rfl, @getPrivileges_of_demotion plain someUsers laterUsers "ann" "anna" "root" "root" "anna" _
    someRequests rfl rfl rfl rfl rfl rfl⟩

end Pandamonium.UserPrivileges
