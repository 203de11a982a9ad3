import Mathlib.Algebra.Order.Group.Defs
import Mathlib.Algebra.Order.Sub.Basic
import Mathlib.Data.List.Sort
import Mathlib.Data.List.TakeWhile

/-! Sliding windows over stamped items: the part of a history that is kept, and what the
whole history would say of every later moment. -/
namespace SlidingWindow

variable {τ ι : Type} [AddCommGroup τ] [LinearOrder τ]
variable (stamp : ι → τ) (window : τ)

def live (now : τ) (items : List ι) : List ι :=
  items.filter fun item => now - window < stamp item

/-- From now on nothing that was dropped would have counted. -/
def Kept (now : τ) (kept whole : List ι) : Prop :=
  ∀ later, now ≤ later → live stamp window later kept = live stamp window later whole

variable {stamp window} {now later : τ} {items kept whole : List ι}

theorem live_append (left right : List ι) :
    live stamp window now (left ++ right) = live stamp window now left ++ live stamp window now right := by
  simp [live]

theorem live_live [IsOrderedAddMonoid τ] (after : now ≤ later) :
    live stamp window later (live stamp window now items) = live stamp window later items := by
  unfold live
  rw [List.filter_filter]
  refine List.filter_congr fun item _ => ?_
  have earlier : later - window < stamp item → now - window < stamp item := fun young =>
    lt_of_le_of_lt (sub_le_sub_right after window) young
  simpa using earlier

/-- Items in the order of their stamps leave at the front. -/
theorem dropWhile_eq_live (sorted : items.Pairwise fun a b => stamp a ≤ stamp b) :
    items.dropWhile (fun item => stamp item ≤ now - window) = live stamp window now items := by
  induction items with
  | nil => rfl
  | cons item rest ih =>
    obtain ⟨below,tail⟩ := List.pairwise_cons.mp sorted
    by_cases old : stamp item ≤ now - window
    · have dead : ¬now - window < stamp item := not_lt.mpr old
      simp only [List.dropWhile_cons,live,List.filter_cons,old,dead,decide_true,decide_false,if_true]
      exact ih tail
    · have young : ∀ other ∈ item :: rest, now - window < stamp other := fun other member => by
        rcases List.mem_cons.mp member with rfl | later
        · exact not_le.mp old
        · exact lt_of_lt_of_le (not_le.mp old) (below other later)
      have all : live stamp window now (item :: rest) = item :: rest := by
        refine List.filter_eq_self.mpr fun other member => ?_
        simpa using young other member
      rw [all]
      simp [old]

/-- Where the last item is too old, all are. -/
theorem live_eq_nil (sorted : items.Pairwise fun a b => stamp a ≤ stamp b)
    (old : ∀ item ∈ items.getLast?, stamp item ≤ now - window) : live stamp window now items = [] := by
  refine List.filter_eq_nil_iff.mpr fun item member => ?_
  have notEmpty : items ≠ [] := List.ne_nil_of_mem member
  have last := old _ (List.getLast?_eq_some_getLast notEmpty)
  have upTo : stamp item ≤ stamp (items.getLast notEmpty) := by
    rcases List.mem_iff_getElem.mp member with ⟨i,inside,rfl⟩
    rw [List.getLast_eq_getElem]
    rcases Nat.lt_or_ge i (items.length - 1) with before | atEnd
    · exact List.pairwise_iff_getElem.mp sorted i _ inside (by omega) before
    · have same : i = items.length - 1 := by omega
      simp [same]
  simpa using upTo.trans last

omit [AddCommGroup τ] in
/-- Moments in order, started at the first of them. -/
theorem pairwise_head_cons {moments : List τ} (inOrder : moments.Pairwise (· ≤ ·)) (filled : moments ≠ []) :
    (moments.head filled :: moments).Pairwise (· ≤ ·) := by
  cases moments with
  | nil => contradiction
  | cons first rest =>
    refine List.pairwise_cons.mpr ⟨fun moment member => ?_,inOrder⟩
    rcases List.mem_cons.mp member with rfl | after
    · exact le_rfl
    · exact (List.pairwise_cons.mp inOrder).1 moment after

namespace Kept

theorem refl : Kept stamp window now items items := fun _ _ => rfl

section
variable (agree : Kept stamp window now kept whole)
include agree

theorem mono (after : now ≤ later) :
    Kept stamp window later kept whole :=
  fun moment reached => agree moment (after.trans reached)

theorem evict [IsOrderedAddMonoid τ] :
    Kept stamp window now (live stamp window now kept) whole :=
  fun moment reached => (live_live reached).trans (agree moment reached)

theorem append (added : List ι) :
    Kept stamp window now (kept ++ added) (whole ++ added) := fun moment reached => by
  rw [live_append,live_append,agree moment reached]

/-- What has died out may be forgotten. -/
theorem forget [IsOrderedAddMonoid τ] (dead : live stamp window now kept = []) :
    Kept stamp window now [] whole := by
  have emptied := agree.evict
  rwa [dead] at emptied

theorem filter (wanted : ι → Bool) :
    Kept stamp window now (kept.filter wanted) (whole.filter wanted) := fun moment reached => by
  have commutes : ∀ some : List ι, live stamp window moment (some.filter wanted)
      = (live stamp window moment some).filter wanted := fun some => by
    simp [live,Bool.and_comm]
  rw [commutes,commutes,agree moment reached]

end

end Kept

variable (stamp window) in
structure Tracks (now : τ) (items whole : List ι) : Prop where
  reached : ∀ item ∈ items, stamp item ≤ now
  sorted : items.Pairwise fun a b => stamp a ≤ stamp b
  kept : Kept stamp window now items whole

namespace Tracks

theorem nil : Tracks stamp window now [] [] := ⟨by simp,by simp,Kept.refl⟩

theorem mono (tracks : Tracks stamp window now items whole) (after : now ≤ later) :
    Tracks stamp window later items whole :=
  ⟨fun item member => (tracks.reached item member).trans after,tracks.sorted,tracks.kept.mono after⟩

theorem live [IsOrderedAddMonoid τ] (tracks : Tracks stamp window now items whole) :
    Tracks stamp window now (live stamp window now items) whole :=
  ⟨fun item member => tracks.reached item (List.mem_of_mem_filter member),
    tracks.sorted.sublist List.filter_sublist,tracks.kept.evict⟩

theorem push (tracks : Tracks stamp window now items whole) {item : ι} (isNow : stamp item = now) :
    Tracks stamp window now (items ++ [item]) (whole ++ [item]) where
  reached other member := by
    rcases List.mem_append.mp member with before | here
    · exact tracks.reached other before
    · exact le_of_eq (List.mem_singleton.mp here ▸ isNow)
  sorted := by
    refine List.pairwise_append.mpr ⟨tracks.sorted,List.pairwise_singleton _ _,fun other member last here => ?_⟩
    rw [List.mem_singleton.mp here,isNow]
    exact tracks.reached other member
  kept := tracks.kept.append [item]

theorem filter (tracks : Tracks stamp window now items whole) (wanted : ι → Bool) :
    Tracks stamp window now (items.filter wanted) (whole.filter wanted) :=
  ⟨fun item member => tracks.reached item (List.mem_of_mem_filter member),
    tracks.sorted.sublist List.filter_sublist,tracks.kept.filter wanted⟩

/-- Items whose last is too old may be forgotten. -/
theorem forget [IsOrderedAddMonoid τ] (tracks : Tracks stamp window now items whole)
    (old : ∀ item ∈ items.getLast?, stamp item ≤ now - window) : Tracks stamp window now [] whole :=
  ⟨by simp,by simp,tracks.kept.forget (live_eq_nil tracks.sorted old)⟩

end Tracks

end SlidingWindow
