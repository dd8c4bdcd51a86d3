import Superviseur.Api.Users

/-!
# The last administrator

A request that would take an administrator away counts the others first, and writes later. Two such
requests that count each other's user both pass. Where the user is still as it was loaded and the
others no fewer than were counted when a request is committed, the guard is enough: the set of
active administrators is never empty.
-/

namespace Superviseur

open ReadCommitted

variable {s : UserDb} {ws : List UserWrite}

/-- What a request has read is still so: its user is as it was loaded, if it is still there, and the
other active administrators are no fewer than it has counted. -/
def current : Conditions UserQuery UserDb UserOutcome where
  read _ _ := True
  commit
    | .updated loaded counted, s | .deleted loaded counted, s =>
      (∀ row ∈ s.users, row.id = loaded.id → row.role = loaded.role ∧ row.active = loaded.active) ∧
        ∀ n ∈ counted, n ≤ s.otherActiveAdmins loaded.id
    | _, _ => True

instance (query : UserQuery) (s : UserDb) : Decidable (current.read query s) := .isTrue trivial

instance (r : UserOutcome) (s : UserDb) : Decidable (current.commit r s) :=
  match r with
  | .updated _ counted | .deleted _ counted =>
    inferInstanceAs (Decidable ((∀ row ∈ s.users, _) ∧ ∀ n ∈ counted, _))
  | .refused _ _ | .failed => .isTrue trivial

/-- What a commit guarantees. -/
def KeepsAdmin (s : UserDb) (ws : List UserWrite) (_ : UserOutcome) : Prop :=
  s.HasAdmin → (userSchema.run ws s).HasAdmin

/-! ## The writes -/

/-- Where some others were counted and there are no fewer now, there is one. -/
theorem exists_other {id : Uuid} {n : ℕ} (hn : n ≤ s.otherActiveAdmins id) (hpos : n ≠ 0) :
    ∃ row ∈ s.users, row.isActiveAdmin = true ∧ row.id ≠ id := by
  have hcount : 0 < s.otherActiveAdmins id := (Nat.pos_of_ne_zero hpos).trans_le hn
  obtain ⟨row, hrow, hother⟩ := List.countP_pos_iff.mp hcount
  obtain ⟨hadmin, hne⟩ := Bool.and_eq_true_iff.mp hother
  exact ⟨row, hrow, hadmin, of_decide_eq_true hne⟩

theorem hasAdmin_update {id : Uuid} {role : Option RoleName} {active : Option Bool}
    {password : Option String} {row : UserRow} (hrow : row ∈ s.users)
    (hadmin : row.isActiveAdmin = true)
    (hkeeps : row.id = id → (UserWrite.set role active password row).isActiveAdmin = true) :
    (UserWrite.apply (.update id role active password) s).HasAdmin := by
  refine ⟨_, List.mem_map_of_mem hrow, ?_⟩
  by_cases hid : row.id = id
  · simpa [hid] using hkeeps hid
  · simpa [hid] using hadmin

theorem hasAdmin_delete {id : Uuid} {row : UserRow} (hrow : row ∈ s.users)
    (hadmin : row.isActiveAdmin = true) (hid : row.id ≠ id) :
    (UserWrite.apply (.delete id) s).HasAdmin :=
  ⟨row, List.mem_filter.mpr ⟨hrow, decide_eq_true hid⟩, hadmin⟩

theorem changed_getD {α : Type} [DecidableEq α] (given : Option α) (loaded : α) :
    (changed given loaded).getD loaded = given.getD loaded := by
  rcases given with - | x
  · rfl
  · by_cases hx : x = loaded <;> simp [changed, Option.filter, hx]

/-- A user as it was loaded, and that does not lose its rights, keeps them. -/
theorem isActiveAdmin_set {user row : UserRow} {body : UserUpdate}
    (hrole : row.role = user.role) (hactive : row.active = user.active)
    (hadmin : row.isActiveAdmin = true) (hkeeps : losesAdmin user body = false) :
    (UserWrite.set (changed body.role user.role) (changed body.active user.active) body.password
      row).isActiveAdmin = true := by
  have huser : user.isActiveAdmin = true := by
    rw [UserRow.isActiveAdmin, ← hrole, ← hactive]
    exact hadmin
  simp only [losesAdmin, huser, Bool.true_and, Bool.or_eq_false_iff, decide_eq_false_iff_not,
    not_not, Bool.not_eq_false'] at hkeeps
  simp only [UserRow.isActiveAdmin, UserWrite.set, hrole, hactive, changed_getD, hkeeps,
    decide_true, Bool.and_self]

/-! ## One request -/

theorem keepsAdmin_update {user : UserRow} {body : UserUpdate} {counted : Option ℕ}
    {audit : UserAudit} (hguard : losesAdmin user body = true → ∃ n ∈ counted, n ≠ 0)
    (hcurrent : current.commit (.updated user counted) s) :
    KeepsAdmin s [.update user.id (changed body.role user.role) (changed body.active user.active)
      body.password, .audit audit] (.updated user counted) := by
  rintro ⟨row, hrow, hadmin⟩
  obtain ⟨hloaded, hcounted⟩ := hcurrent
  by_cases hid : row.id = user.id
  · rcases hloses : losesAdmin user body
    · obtain ⟨hrole, hactive⟩ := hloaded row hrow hid
      exact hasAdmin_update hrow hadmin fun _ ↦ isActiveAdmin_set hrole hactive hadmin hloses
    · -- the user goes, one of those counted stays
      obtain ⟨n, hn, hpos⟩ := hguard hloses
      obtain ⟨other, hother, hotherAdmin, hne⟩ := exists_other (hcounted n hn) hpos
      exact hasAdmin_update hother hotherAdmin fun h ↦ absurd h hne
  · exact hasAdmin_update hrow hadmin fun h ↦ absurd h hid

theorem keepsAdmin_delete {user : UserRow} {counted : Option ℕ} {audit : UserAudit}
    (hguard : user.isActiveAdmin = true → ∃ n ∈ counted, n ≠ 0)
    (hcurrent : current.commit (.deleted user counted) s) :
    KeepsAdmin s [.audit audit, .delete user.id] (.deleted user counted) := by
  rintro ⟨row, hrow, hadmin⟩
  obtain ⟨hloaded, hcounted⟩ := hcurrent
  by_cases hid : row.id = user.id
  · obtain ⟨hrole, hactive⟩ := hloaded row hrow hid
    have huser : user.isActiveAdmin = true := by
      rw [UserRow.isActiveAdmin, ← hrole, ← hactive]
      exact hadmin
    obtain ⟨n, hn, hpos⟩ := hguard huser
    obtain ⟨other, hother, hotherAdmin, hne⟩ := exists_other (hcounted n hn) hpos
    exact hasAdmin_delete hother hotherAdmin hne
  · exact hasAdmin_delete hrow hadmin hid

theorem valid_asAdmin {passwordStamp : String → String} {claims : TokenClaims}
    {k : UserRow → UserProg} (h : ∀ admin t, Valid userSchema current KeepsAdmin (k admin) [] t) :
    Valid userSchema current KeepsAdmin (asAdmin passwordStamp claims k) [] s := by
  refine valid_read stable_true trivial fun t _ _ ↦ ?_
  rcases hload : loadUser passwordStamp claims (userSchema.run [] t) with - | admin
  · trivial
  by_cases hrole : hasRole admin.role .admin
  · simp only [hrole, if_true]
    exact h admin t
  · simp only [hrole]
    trivial

theorem valid_getUser {id : Uuid} {k : UserRow → UserProg}
    (h : ∀ user t, Valid userSchema current KeepsAdmin (k user) [] t) :
    Valid userSchema current KeepsAdmin (getUser id k) [] s := by
  refine valid_read stable_true trivial fun t _ _ ↦ ?_
  rcases (userSchema.run [] t).user? id with - | user
  · trivial
  · exact h user t

theorem valid_keepAdmin {id : Uuid} {k : ℕ → UserProg}
    (h : ∀ n t, n ≠ 0 → Valid userSchema current KeepsAdmin (k n) [] t) :
    Valid userSchema current KeepsAdmin (keepAdmin id k) [] s := by
  refine valid_read stable_true trivial fun t _ _ ↦ ?_
  by_cases hcount : (userSchema.run [] t).otherActiveAdmins id = 0
  · simp only [hcount, if_true]
    trivial
  · simp only [hcount, if_false]
    exact h _ t hcount

theorem valid_checkRole {role : Option RoleName} {k : UserProg}
    (h : ∀ t, Valid userSchema current KeepsAdmin k [] t) :
    Valid userSchema current KeepsAdmin (checkRole role k) [] s := by
  rcases role with - | role
  · exact h s
  refine valid_read stable_true trivial fun t _ _ ↦ ?_
  by_cases hrole : role ∈ (userSchema.run [] t).roles
  · simp only [hrole, if_true]
    exact h t
  · simp only [hrole, if_false]
    trivial

theorem valid_storeUser {admin user : UserRow} {body : UserUpdate} {counted : Option ℕ}
    (hguard : losesAdmin user body = true → ∃ n ∈ counted, n ≠ 0) :
    Valid userSchema current KeepsAdmin (storeUser admin user body counted) [] s := by
  unfold storeUser
  simp only
  split
  · refine valid_write stable_true trivial fun t _ _ ↦ ?_
    exact valid_commit stable_true trivial fun t _ _ hadmin ↦ hadmin
  · refine valid_write stable_true trivial fun t _ _ ↦ ?_
    refine valid_write stable_true trivial fun t _ _ ↦ ?_
    exact valid_commit stable_true trivial fun t _ hcurrent ↦ keepsAdmin_update hguard hcurrent

theorem valid_updateUser {passwordStamp : String → String} {claims : TokenClaims} {id : Uuid}
    {body : UserUpdate} :
    Valid userSchema current KeepsAdmin (updateUser passwordStamp claims id body) [] s := by
  refine valid_asAdmin fun admin t ↦ valid_getUser fun user t ↦ ?_
  have hstore : ∀ (counted : Option ℕ) t,
      (losesAdmin user body = true → ∃ n ∈ counted, n ≠ 0) →
      Valid userSchema current KeepsAdmin
        (if user.id = admin.id ∧ body.active.getD user.active = false then
          .rollback (.refused 409 "vous ne pouvez pas désactiver votre compte")
        else checkRole body.role (storeUser admin user body counted)) [] t := by
    intro counted t hguard
    split
    · trivial
    · exact valid_checkRole fun t ↦ valid_storeUser hguard
  simp only
  split
  · split
    · trivial
    · exact valid_keepAdmin fun n t hpos ↦ hstore (some n) t fun _ ↦ ⟨n, rfl, hpos⟩
  · rename_i hkeeps
    exact hstore none t fun hloses ↦ absurd hloses hkeeps

theorem valid_deleteUser {passwordStamp : String → String} {claims : TokenClaims} {id : Uuid} :
    Valid userSchema current KeepsAdmin (deleteUser passwordStamp claims id) [] s := by
  refine valid_asAdmin fun admin t ↦ valid_getUser fun user t ↦ ?_
  have hstore : ∀ audit (counted : Option ℕ) t,
      (user.isActiveAdmin = true → ∃ n ∈ counted, n ≠ 0) →
      Valid userSchema current KeepsAdmin (.write (.audit audit)
        (.write (.delete user.id) (.commit (.deleted user counted)) .failed) .failed) [] t := by
    intro audit counted t hguard
    refine valid_write stable_true trivial fun t _ _ ↦ ?_
    refine valid_write stable_true trivial fun t _ _ ↦ ?_
    exact valid_commit stable_true trivial fun t _ hcurrent ↦ keepsAdmin_delete hguard hcurrent
  simp only
  split
  · trivial
  split
  · exact valid_keepAdmin fun n t hpos ↦ hstore _ (some n) t fun _ ↦ ⟨n, rfl, hpos⟩
  · rename_i hadmin
    exact hstore _ none t fun h ↦ absurd h hadmin

/-! ## Runs -/

/-- **There is always an active administrator**, in every run in which, when a request is committed,
its user is still as it was loaded and the others are no fewer than were counted. -/
theorem admin_remains {ι : Type} [DecidableEq ι] (passwordStamp : String → String)
    {y : System ι _ _ _ _} {ls : List (Label ι UserRequest)} (hs : s.HasAdmin)
    (hrun : System.Run userSchema (UserRequest.program passwordStamp) current (System.idle s)
      ls y) :
    y.db.HasAdmin := by
  refine System.Run.invariant (G := KeepsAdmin) (fun t _ ↦ t.HasAdmin) ?_ ?_ hs hrun
  · rintro (⟨claims, id, body⟩ | ⟨claims, id⟩) t log _
    · exact valid_updateUser
    · exact valid_deleteUser
  · exact fun t log ws r hadmin hkeeps ↦ hkeeps hadmin

/-! ## Two administrators -/

def twoAdmins : UserDb where
  users := [⟨1, "alice", .admin, true, "h1"⟩, ⟨2, "bob", .admin, true, "h2"⟩]
  roles := [.viewer, .operator, .engineer, .admin]
  audits := []

/-- User `author` makes user `id` a viewer; a hash is its own stamp. -/
def demote (author : Uuid) (stamp : String) (id : Uuid) : UserRequest :=
  .update ⟨author, stamp⟩ id ⟨some .viewer, none, none⟩

theorem hasAdmin_twoAdmins : twoAdmins.HasAdmin := by
  refine ⟨⟨1, "alice", .admin, true, "h1"⟩, ?_, rfl⟩
  exact List.mem_cons_self ..

/-- One loads the other, who demotes it and is committed: it then counts nobody else. -/
def demotedMeanwhile : List (Label ℕ UserRequest) :=
  [.start 1 (demote 1 "h1" 2)] ++ List.replicate 2 (.advance 1) ++
    [.start 2 (demote 2 "h2" 1)] ++ List.replicate 7 (.advance 2) ++ List.replicate 2 (.advance 1)

theorem admin_remains_demoted :
    ∃ y, System.Run userSchema (UserRequest.program id) current (System.idle twoAdmins)
      demotedMeanwhile y ∧ y.db.users.map UserRow.role = [.viewer, .admin] ∧ y.db.HasAdmin := by
  have hroles : ((Trace.exec (fun x l ↦ if System.Meets userSchema current x l then
      System.next userSchema (UserRequest.program id) x l else none) (System.idle twoAdmins)
      demotedMeanwhile).map fun y ↦ y.db.users.map UserRow.role) = some [.viewer, .admin] := by
    decide
  obtain ⟨y, hy, hroles⟩ := Option.map_eq_some_iff.mp hroles
  have hrun : System.Run userSchema (UserRequest.program id) current (System.idle twoAdmins)
      demotedMeanwhile y := .of_exec_checked hy
  exact ⟨y, hrun, hroles, admin_remains id hasAdmin_twoAdmins hrun⟩

/-- Each demotes the other, and counts before the other one is committed. -/
def mutualDemotion : List (Label ℕ UserRequest) :=
  [.start 1 (demote 1 "h1" 2), .start 2 (demote 2 "h2" 1)] ++ List.replicate 4 (.advance 1) ++
    List.replicate 4 (.advance 2) ++ List.replicate 3 (.advance 1) ++ List.replicate 3 (.advance 2)

/-- Both are committed, and no administrator is left. -/
theorem no_admin_left : ¬ ∀ (ls : List (Label ℕ UserRequest))
    (y : System ℕ UserQuery UserDb UserWrite UserOutcome),
    System.Run userSchema (UserRequest.program id) .none (System.idle twoAdmins) ls y →
      y.db.HasAdmin := by
  intro hall
  have hadmins : ((Trace.exec (System.next userSchema (UserRequest.program id))
      (System.idle twoAdmins) mutualDemotion).map fun y ↦ y.db.users.any UserRow.isActiveAdmin) =
      some false := by decide
  obtain ⟨y, hy, hnone⟩ := Option.map_eq_some_iff.mp hadmins
  obtain ⟨row, hrow, hadmin⟩ :=
    hall mutualDemotion y (.of_exec (fun l _ x ↦ System.meets_none _ x l) hy)
  rw [List.any_eq_false] at hnone
  exact hnone row hrow hadmin

end Superviseur
