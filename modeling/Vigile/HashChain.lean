import Mathlib.Data.List.Chain
import Mathlib.Data.List.Infix
import Mathlib.Data.List.Nodup
import Mathlib.Data.List.Sort

/-! Logs of rows that carry a sequence number, the hash of the row before them and a
hash of their own. A kept part of a chained log is chained only when it is consecutive. -/
namespace HashChain

section
variable {α : Type} (key : α → Int)

/-- The rows as `ORDER BY key` returns them. -/
def inOrder (rows : List α) : List α := rows.insertionSort fun a b => key a ≤ key b

variable {key}

instance total_key : Std.Total fun a b : α => key a ≤ key b := ⟨fun _ _ => Int.le_total _ _⟩
instance trans_key : IsTrans α fun a b => key a ≤ key b := ⟨fun _ _ _ => Int.le_trans⟩

theorem inOrder_perm (rows : List α) : (inOrder key rows).Perm rows := List.perm_insertionSort _ rows

variable {rows : List α}

@[simp] theorem mem_inOrder {row : α} : row ∈ inOrder key rows ↔ row ∈ rows :=
  (inOrder_perm rows).mem_iff

theorem pairwise_inOrder (rows : List α) : (inOrder key rows).Pairwise fun a b => key a ≤ key b :=
  List.pairwise_insertionSort _ rows

/-- Distinct keys make the order strict. -/
theorem strict_inOrder (unique : (rows.map key).Nodup) :
    (inOrder key rows).Pairwise fun a b => key a < key b := by
  have apart : ((inOrder key rows).map key).Nodup := ((inOrder_perm rows).map key).nodup_iff.mpr unique
  have distinct := List.pairwise_map.mp apart
  exact (pairwise_inOrder rows).imp₂ (fun _ _ le ne => lt_of_le_of_ne le ne) distinct

theorem inOrder_of_strict (strict : rows.Pairwise fun a b => key a < key b) :
    inOrder key rows = rows :=
  List.Pairwise.insertionSort_eq (strict.imp Int.le_of_lt)

/-- Selecting rows and ordering them commute. -/
theorem inOrder_filter (unique : (rows.map key).Nodup) (keep : α → Bool) :
    inOrder key (rows.filter keep) = (inOrder key rows).filter keep := by
  have strict := (strict_inOrder unique).filter keep
  have selected : (rows.filter keep |>.map key).Nodup := unique.sublist (List.filter_sublist.map key)
  have same : (inOrder key (rows.filter keep)).Perm ((inOrder key rows).filter keep) :=
    (inOrder_perm _).trans ((inOrder_perm rows).symm.filter keep)
  exact same.eq_of_pairwise (fun _ _ _ _ lt gt => absurd lt (Int.lt_asymm gt))
    (strict_inOrder selected) strict

/-- Rewriting rows without touching their keys and ordering them commute. -/
theorem inOrder_map {f : α → α} (keyed : ∀ row, key (f row) = key row) (rows : List α) :
    inOrder key (rows.map f) = (inOrder key rows).map f :=
  (List.map_insertionSort _ _ f rows fun a _ b _ => by rw [keyed,keyed]).symm

end

section
variable {α β : Type} (previous hash : α → β)

def Linked (expected : β) : List α → Prop
  | [] => True
  | row :: rest => previous row = expected ∧ Linked (hash row) rest

variable {previous hash}

variable {expected : β} {rows : List α}

theorem linked_iff_isChain :
    Linked previous hash expected rows ↔
      (∀ first ∈ rows.head?, previous first = expected) ∧
        rows.IsChain fun a b => previous b = hash a := by
  induction rows generalizing expected with
  | nil => simp [Linked]
  | cons row rest ih => simp [Linked,ih,List.isChain_cons]

/-- A log grows by a row that names the hash of its last one. -/
theorem linked_concat {row : α} :
    Linked previous hash expected (rows ++ [row]) ↔
      Linked previous hash expected rows ∧ previous row = (rows.getLast?.map hash).getD expected := by
  induction rows generalizing expected with
  | nil => simp [Linked]
  | cons first rest ih =>
    simp only [List.cons_append,Linked,ih,and_assoc]
    cases rest with
    | nil => simp
    | cons next rest => simp [List.getLast?_cons]

end

section
variable {α : Type} {R : α → α → Prop}

/-- What is kept of a duplicate-free chain, whose links determine the row before, is a
chain exactly when it is consecutive. -/
theorem isChain_iff_infix {kept rows : List α} (sub : kept.Sublist rows) (chain : rows.IsChain R)
    (nodup : rows.Nodup) (back : ∀ a ∈ rows, ∀ b ∈ rows, ∀ c, R a c → R b c → a = b) :
    kept.IsChain R ↔ kept <:+: rows := by
  refine ⟨fun linked => ?_,fun consecutive => chain.infix consecutive⟩
  induction sub with
  | slnil => exact List.infix_refl _
  | @cons kept rows a _ ih =>
    refine (ih chain.tail nodup.of_cons (fun x hx y hy => ?_) linked).trans
      (List.suffix_cons a rows).isInfix
    exact back x (List.mem_cons_of_mem _ hx) y (List.mem_cons_of_mem _ hy)
  | @cons_cons kept rows a _ ih =>
    have within := ih chain.tail nodup.of_cons
      (fun x hx y hy => back x (List.mem_cons_of_mem _ hx) y (List.mem_cons_of_mem _ hy)) linked.tail
    cases kept with
    | nil => exact ⟨[],rows,rfl⟩
    | cons b kept =>
      obtain ⟨front,rear,rfl⟩ := within
      have first : R a b := (List.isChain_cons_cons.mp linked).1
      rcases List.eq_nil_or_concat front with rfl | ⟨front,c,rfl⟩
      · exact ⟨[],rear,by simp⟩
      · -- `b` would have a second row before it, which is `a` again
        have second : R c b := by
          have whole := chain.tail
          simp only [List.concat_eq_append,List.append_assoc,
            List.tail_cons,List.cons_append] at whole
          exact (List.isChain_cons_cons.mp (List.IsChain.right_of_append whole)).1
        have same := back a (by simp) c (by simp) b first second
        simp [same] at nodup

end

end HashChain
