import Mathlib.Data.List.Pairwise
import Vigile.RefreshTokens

/-! The table of refresh tokens after one more change. -/
namespace Vigile.Refresh

open Interleaving Python Sqlite

variable {τ : Type} {ttl : ℚ} {log : List Change} {row other : TokenRow} {change : Change}

theorem tableOf_concat (log : List Change) (change : Change) :
    tableOf (log ++ [change]) = change.apply (tableOf log) := by
  simp [tableOf,replay,List.foldl_append]

theorem condemned_concat (log : List Change) (change : Change) :
    condemned (log ++ [change]) = condemned log ++ change.condemns (tableOf log) := by
  simp [tableOf,condemned,replay,List.foldl_append]

def Change.isUpdate : Change → Bool
  | .insert _ => false
  | _ => true

theorem apply_update (update : change.isUpdate = true) (rows : List TokenRow) :
    change.apply rows = rows.map (TokenRow.after change) := by
  cases change <;> first | rfl | contradiction

structure Sound (log : List Change) : Prop where
  owner : ∀ row ∈ tableOf log, row.userId = row.tokenHash.sub ∧ row.familyId = row.tokenHash.familyId
  users : ∀ row ∈ tableOf log, ∀ other ∈ tableOf log, row.familyId = other.familyId → row.userId = other.userId
  single : (tableOf log).Pairwise fun row other => row.familyId = other.familyId → row.revoked = true ∨ other.revoked = true
  condemned : ∀ row ∈ tableOf log, row.familyId ∈ condemned log → row.revoked = true

theorem Sound.update (kept : Sound log) (update : change.isUpdate = true) : Sound (log ++ [change]) := by
  have rows : ∀ row ∈ tableOf (log ++ [change]), ∃ old ∈ tableOf log, old.after change = row := by
    intro row member
    rw [tableOf_concat,apply_update update] at member
    exact List.mem_map.mp member
  refine ⟨?_,?_,?_,?_⟩
  · intro row member
    obtain ⟨old,found,rfl⟩ := rows row member
    exact kept.owner old found
  · intro row member other member' same
    obtain ⟨old,found,rfl⟩ := rows row member
    obtain ⟨old',found',rfl⟩ := rows other member'
    exact kept.users old found old' found' same
  · rw [tableOf_concat,apply_update update,List.pairwise_map]
    apply kept.single.imp
    intro row other either same
    simp only [TokenRow.after,Bool.or_eq_true]
    exact (either same).imp .inl .inl
  · intro row member family
    obtain ⟨old,found,rfl⟩ := rows row member
    rw [condemned_concat,List.mem_append] at family
    simp only [TokenRow.after,Bool.or_eq_true]
    rcases family with before | now
    · exact .inl (kept.condemned old found before)
    · right
      cases change with
      | revokeFamily familyId => simpa [Change.condemns,Change.revokes,TokenRow.after] using now
      | revokeUser userId =>
        simp only [Change.condemns,List.mem_map,List.mem_filter,decide_eq_true_eq] at now
        obtain ⟨theirs,⟨there,user⟩,same⟩ := now
        have : old.userId = theirs.userId := kept.users old found theirs there same.symm
        simp [Change.revokes,this,user]
      | _ => simp [Change.condemns] at now

/-- A new row fits where its family has no unrevoked row, the user of the family and no
revocation as a whole. -/
theorem Sound.insert (kept : Sound log) (owned : row.userId = row.tokenHash.sub ∧ row.familyId = row.tokenHash.familyId)
    (user : ∀ old ∈ tableOf log, old.familyId = row.familyId → old.userId = row.userId)
    (revoked : ∀ old ∈ tableOf log, old.familyId = row.familyId → old.revoked = true)
    (uncondemned : row.familyId ∉ Refresh.condemned log) : Sound (log ++ [.insert row]) := by
  have table : tableOf (log ++ [.insert row]) = tableOf log ++ [row] := tableOf_concat log (.insert row)
  have families : Refresh.condemned (log ++ [.insert row]) = Refresh.condemned log := by
    rw [condemned_concat]
    exact List.append_nil _
  refine ⟨?_,?_,?_,?_⟩ <;> rw [table]
  · intro own member
    rcases List.mem_append.mp member with old | new
    · exact kept.owner own old
    · rw [List.mem_singleton.mp new]
      exact owned
  · intro own member other member' same
    rcases List.mem_append.mp member with old | new
    · rcases List.mem_append.mp member' with old' | new'
      · exact kept.users own old other old' same
      · rw [List.mem_singleton.mp new'] at same ⊢
        exact user own old same
    · rcases List.mem_append.mp member' with old' | new'
      · rw [List.mem_singleton.mp new] at same ⊢
        exact (user other old' same.symm).symm
      · rw [List.mem_singleton.mp new,List.mem_singleton.mp new']
  · apply List.pairwise_append.mpr
    refine ⟨kept.single,List.pairwise_singleton _ _,?_⟩
    intro old member own new same
    rw [List.mem_singleton.mp new] at same
    exact .inl (revoked old member same)
  · intro own member family
    rw [families] at family
    rcases List.mem_append.mp member with old | new
    · exact kept.condemned own old family
    · rw [List.mem_singleton.mp new] at family
      exact absurd family uncondemned

/-- Of two unrevoked rows of a family there is one. -/
theorem Sound.unrevoked_unique (sound : Sound log) (member : row ∈ tableOf log) (member' : other ∈ tableOf log)
    (same : row.familyId = other.familyId) (unrevoked : other.revoked = false) : row = other ∨ row.revoked = true := by
  by_cases is : row = other
  · exact .inl is
  · have symmetric : Std.Symm fun row other : TokenRow =>
        row.familyId = other.familyId → row.revoked = true ∨ other.revoked = true :=
      ⟨fun _ _ either same => (either same.symm).symm⟩
    rcases sound.single.forall member member' is same with revoked | revoked
    · exact .inr revoked
    · rw [unrevoked] at revoked
      contradiction

def Known (log : List Change) (row : TokenRow) : Prop :=
  ∃ now ∈ tableOf log, now.id = row.id ∧ now.userId = row.userId ∧ now.tokenHash = row.tokenHash ∧
    now.familyId = row.familyId

theorem known_of_mem (member : row ∈ tableOf log) : Known log row := ⟨row,member,rfl,rfl,rfl,rfl⟩

theorem Known.concat (known : Known log row) (change : Change) : Known (log ++ [change]) row := by
  obtain ⟨now,member,same⟩ := known
  rw [Known,tableOf_concat]
  by_cases update : change.isUpdate = true
  · rw [apply_update update]
    exact ⟨now.after change,List.mem_map_of_mem member,same⟩
  · cases change with
    | insert new => exact ⟨now,List.mem_append_left _ member,same⟩
    | _ => exact absurd rfl update

theorem Known.extend (known : Known log row) {longer : List Change} (grows : log <+: longer) : Known longer row := by
  obtain ⟨more,rfl⟩ := grows
  induction more using List.reverseRecOn with
  | nil => rwa [List.append_nil]
  | append_singleton more change ih =>
    rw [← List.append_assoc]
    exact ih.concat change

def Spent (log : List Change) (token : RefreshToken) : Prop :=
  (∃ row, Known log row ∧ row.tokenHash = token) ∧ ∀ now ∈ tableOf log, now.tokenHash = token → now.revoked = true

variable {token : RefreshToken}

theorem Spent.update (spent : Spent log token) (update : change.isUpdate = true) : Spent (log ++ [change]) token := by
  obtain ⟨⟨row,known,is⟩,revoked⟩ := spent
  refine ⟨⟨row,known.concat change,is⟩,?_⟩
  intro now member same
  rw [tableOf_concat,apply_update update] at member
  obtain ⟨old,found,rfl⟩ := List.mem_map.mp member
  simp only [TokenRow.after,Bool.or_eq_true]
  exact .inl (revoked old found same)

theorem Spent.insert (spent : Spent log token) {new : TokenRow} (unique : uniqueCheck new log = .ok ()) :
    Spent (log ++ [.insert new]) token := by
  obtain ⟨⟨row,known,is⟩,revoked⟩ := spent
  refine ⟨⟨row,known.concat _,is⟩,?_⟩
  intro now member same
  rw [tableOf_concat] at member
  rcases List.mem_append.mp member with old | added
  · exact revoked now old same
  · rw [List.mem_singleton.mp added] at same
    obtain ⟨first,there,_,_,hash,_⟩ := known
    unfold uniqueCheck at unique
    split at unique
    · contradiction
    · split at unique
      · contradiction
      · rename_i distinct
        apply absurd _ distinct
        exact List.any_eq_true.mpr ⟨first,there,by simpa using (hash.trans is).trans same.symm⟩

theorem Spent.concat (spent : Spent log token) (checked : change.check log = .ok ()) : Spent (log ++ [change]) token := by
  by_cases update : change.isUpdate = true
  · exact spent.update update
  · cases change with
    | insert new => exact spent.insert checked
    | _ => exact absurd rfl update

end Vigile.Refresh
