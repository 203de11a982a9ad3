import Vigile.FilePath
import Vigile.FileTree

/-! Paths resolved in a file tree with symbolic links: as the operating system opens them, and as
filepath.EvalSymlinks rewrites them. -/
namespace FileTree

open LexicalPath

def Entries.find (name : List Char) : Entries → Option Item
  | .nil => none
  | .cons own item rest => if own = name then some item else rest.find name

def Item.child (name : List Char) : Item → Option Item
  | .directory _ entries => entries.find name
  | _ => none

/-- What lies where these names lead, the deepest one first. -/
def Item.under (root : Item) : List (List Char) → Option Item
  | [] => some root
  | name :: above => (root.under above).bind (Item.child name)

def Solid (root : Item) : List (List Char) → Prop
  | [] => True
  | name :: above => Ordinary name ∧
      (∃ item, root.under (name :: above) = some item ∧ ∀ info target, item ≠ .symlink info target) ∧ Solid root above

structure FileSystem where
  root : Item
  cwd : List (List Char)
  solid : Solid root cwd
  separate : ∀ name ∈ cwd, '/' ∉ name

theorem separate_nil : ∀ name ∈ ([] : List (List Char)), '/' ∉ name := by
  simp

inductive Errno where
  | noEntry
  | notDirectory
  | tooManyLinks
  deriving DecidableEq

/-- The names from the root down to a place, the deepest one first. -/
def FileSystem.location (fs : FileSystem) (p : Place) : List (List Char) :=
  if p.absolute then p.names else p.names ++ fs.cwd.drop p.ups

/-- Where the components lead from a place without a link in it; a link is handed on with what comes after it. -/
def descend (fs : FileSystem) (follow : Place → List (List Char) → Except Errno Place) (p : Place) :
    List (List Char) → Except Errno Place
  | [] => .ok p
  | part :: rest =>
    if Ordinary part then
      match fs.root.under (part :: fs.location p) with
      | none => .error .noEntry
      | some (.symlink _ target) => follow (if isAbsolute target then ⟨true,0,[]⟩ else p) (components target ++ rest)
      | some (.file _) => if rest = [] then .ok (p.enter part) else .error .notDirectory
      | some (.directory _ _) => descend fs follow (p.enter part) rest
    else descend fs follow (p.enter part) rest

/-- Where the components lead if no more than so many links are followed. -/
def resolve (fs : FileSystem) : Nat → Place → List (List Char) → Except Errno Place
  | 0 => descend fs fun _ _ => .error .tooManyLinks
  | links + 1 => descend fs (resolve fs links)

/-- The links that filepath.EvalSymlinks follows, and those that the system follows. -/
def evalLinks : Nat := 255
def openLinks : Nat := 40

def resolvePath (fs : FileSystem) (links : Nat) (path : List Char) : Except Errno Place :=
  resolve fs links ⟨isAbsolute path,0,[]⟩ (components path)

def evalSymlinks (fs : FileSystem) (path : List Char) : Except Errno (List Char) :=
  (resolvePath fs evalLinks path).map Place.text

def opens (fs : FileSystem) (path : List Char) : Except Errno (List (List Char)) :=
  if path = [] then .error .noEntry else (resolvePath fs openLinks path).map fs.location

variable {fs : FileSystem} {follow more : Place → List (List Char) → Except Errno Place} {p q q' : Place}
  {parts : List (List Char)} {links links' : Nat} {path resolved : List Char} {location : List (List Char)}

theorem descend_mono (grows : ∀ p parts q, follow p parts = .ok q → more p parts = .ok q)
    (done : descend fs follow p parts = .ok q) : descend fs more p parts = .ok q := by
  induction parts generalizing p with
  | nil => exact done
  | cons part rest ih =>
    unfold descend at done ⊢
    split at done
    · rename_i ordinary
      rw [if_pos ordinary]
      split at done
      · simp at done
      · exact grows _ _ _ done
      · exact done
      · exact ih done
    · rename_i special
      rw [if_neg special]
      exact ih done

/-- Who may follow more links gets as far. -/
theorem resolve_mono (fewer : links ≤ links') (done : resolve fs links p parts = .ok q) :
    resolve fs links' p parts = .ok q := by
  induction links generalizing links' p parts q with
  | zero =>
    cases links' with
    | zero => exact done
    | succ links' => exact descend_mono (fun _ _ _ failed => by simp at failed) done
  | succ links ih =>
    obtain ⟨links',rfl⟩ : ∃ n, links' = n + 1 := ⟨links' - 1,by omega⟩
    exact descend_mono (fun _ _ _ further => ih (by omega) further) done

structure Invariant (fs : FileSystem) (kept : Place → Prop) : Prop where
  special : ∀ p part, kept p → '/' ∉ part → ¬Ordinary part → kept (p.enter part)
  enter : ∀ p part item, kept p → '/' ∉ part → Ordinary part → fs.root.under (part :: fs.location p) = some item →
    (∀ info target, item ≠ .symlink info target) → kept (p.enter part)
  root : kept ⟨true,0,[]⟩

theorem descend_invariant {kept : Place → Prop} (invariant : Invariant fs kept)
    (follows : ∀ p parts q, kept p → (∀ part ∈ parts, '/' ∉ part) → follow p parts = .ok q → kept q) (holds : kept p)
    (separate : ∀ part ∈ parts, '/' ∉ part) (done : descend fs follow p parts = .ok q) : kept q := by
  induction parts generalizing p with
  | nil => exact Except.ok.inj done ▸ holds
  | cons part rest ih =>
    obtain ⟨here,later⟩ := List.forall_mem_cons.mp separate
    unfold descend at done
    split at done
    · rename_i ordinary
      split at done
      · simp at done
      · rename_i info target found
        refine follows _ _ _ ?_ ?_ done
        · split
          · exact invariant.root
          · exact holds
        · intro part member
          rcases List.mem_append.mp member with inside | after
          · exact not_mem_components inside
          · exact later part after
      · rename_i info found
        split at done
        · exact Except.ok.inj done ▸ invariant.enter p part _ holds here ordinary found (by simp)
        · simp at done
      · rename_i info entries found
        exact ih (invariant.enter p part _ holds here ordinary found (by simp)) later done
    · rename_i special
      exact ih (invariant.special p part holds here special) later done

theorem resolve_invariant {kept : Place → Prop} (invariant : Invariant fs kept) (holds : kept p)
    (separate : ∀ part ∈ parts, '/' ∉ part) (done : resolve fs links p parts = .ok q) : kept q := by
  induction links generalizing p parts q with
  | zero => exact descend_invariant invariant (fun _ _ _ _ _ failed => by simp at failed) holds separate done
  | succ links ih =>
    exact descend_invariant invariant (fun _ _ _ holds separate done => ih holds separate done) holds separate done

theorem proper_invariant (fs : FileSystem) : Invariant fs Place.Proper where
  special _ _ proper separate _ := proper.enter separate
  enter _ _ _ proper separate _ _ _ := proper.enter separate
  root := proper_start true

theorem resolvePath_proper (done : resolvePath fs links path = .ok p) : p.Proper :=
  resolve_invariant (proper_invariant fs) (proper_start _) (fun _ member => not_mem_components member) done

/-- A place from the root whose names are solid. -/
def Grounded (fs : FileSystem) (p : Place) : Prop := p.absolute = true ∧ p.ups = 0 ∧ Solid fs.root p.names

theorem grounded_invariant (fs : FileSystem) : Invariant fs (Grounded fs) where
  special p part := by
    rintro ⟨absolute,ups,solid⟩ _ _
    unfold Place.enter
    split
    · exact ⟨absolute,ups,solid⟩
    · rename_i still
      split
      · split
        · rename_i name above names
          rw [names] at solid
          exact ⟨absolute,ups,solid.2.2⟩
        · exact ⟨absolute,ups,solid⟩
      · rename_i special up
        exact absurd ⟨(not_or.mp still).1,(not_or.mp still).2,up⟩ special
  enter p part item := by
    rintro ⟨absolute,ups,solid⟩ _ ordinary found other
    rw [enter_ordinary p ordinary]
    refine ⟨absolute,ups,ordinary,⟨item,?_,other⟩,solid⟩
    unfold FileSystem.location at found
    rwa [if_pos absolute] at found
  root := ⟨rfl,rfl,trivial⟩

theorem resolvePath_grounded (rooted : isAbsolute path = true) (done : resolvePath fs links path = .ok p) :
    Grounded fs p := by
  refine resolve_invariant (grounded_invariant fs) ?_ (fun _ member => not_mem_components member) done
  exact ⟨rooted,rfl,trivial⟩

theorem Solid.ordinary {root : Item} {names : List (List Char)} (solid : Solid root names) : ∀ name ∈ names, Ordinary name := by
  induction names with
  | nil => simp
  | cons name names ih => exact List.forall_mem_cons.mpr ⟨solid.1,ih solid.2.2⟩

theorem Solid.above {root : Item} {names above : List (List Char)} (solid : Solid root (names ++ above)) :
    Solid root above := by
  induction names with
  | nil => exact solid
  | cons name names ih => exact ih solid.2.2

/-- A path goes on from names that no link is among. -/
theorem descend_through (fs : FileSystem) (follow : Place → List (List Char) → Except Errno Place)
    (parts above : List (List Char)) {rest : List (List Char)} (solid : Solid fs.root (parts.reverse ++ above))
    (ordinary : ∀ part ∈ rest, Ordinary part) (done : descend fs follow ⟨true,0,parts.reverse ++ above⟩ rest = .ok q) :
    descend fs follow ⟨true,0,above⟩ (parts ++ rest) = .ok q := by
  induction parts generalizing above with
  | nil => exact done
  | cons part parts ih =>
    rw [List.reverse_cons,List.append_assoc,List.singleton_append] at solid done
    obtain ⟨named,⟨item,found,other⟩,_⟩ := solid.above
    have located : fs.location ⟨true,0,above⟩ = above := rfl
    have beyond (next : List Char) (file : ∃ info, item = .file info) : fs.root.under (next :: part :: above) = none := by
      obtain ⟨info,rfl⟩ := file
      rw [Item.under,found]
      rfl
    rw [List.cons_append]
    unfold descend
    rw [if_pos named,located,found,enter_ordinary _ named]
    cases item with
    | symlink info target => exact absurd rfl (other info target)
    | directory info entries => exact ih _ solid done
    | file info =>
      cases parts with
      | cons next parts =>
        rw [List.reverse_cons,List.append_assoc,List.singleton_append] at solid
        obtain ⟨_,⟨item,further,_⟩,_⟩ := solid.above
        rw [beyond next ⟨info,rfl⟩] at further
        contradiction
      | nil =>
        cases rest with
        | nil => exact done
        | cons next rest =>
          have located' : fs.location ⟨true,0,part :: above⟩ = part :: above := rfl
          rw [List.reverse_nil,List.nil_append] at done
          unfold descend at done
          rw [if_pos (ordinary next List.mem_cons_self),located',beyond next ⟨info,rfl⟩] at done
          contradiction

/-- A place that was reached is reached again by its text, whatever the limit of links. -/
theorem resolvePath_text (grounded : Grounded fs p) (proper : p.Proper) : resolvePath fs links p.text = .ok p := by
  obtain ⟨absolute,ups,solid⟩ := grounded
  have whole : (⟨true,0,p.names⟩ : Place) = p := by rw [← absolute,← ups]
  have leads (follow : Place → List (List Char) → Except Errno Place) :
      descend fs follow ⟨true,0,[]⟩ (components p.text) = .ok p := by
    have first (rest : List (List Char)) : descend fs follow ⟨true,0,[]⟩ ([] :: rest) = descend fs follow ⟨true,0,[]⟩ rest :=
      rfl
    rw [components_text proper absolute,first]
    split
    · rename_i none
      rw [← whole,none]
      rfl
    · have down := descend_through fs follow p.names.reverse [] (by simpa using solid) (List.forall_mem_nil _) rfl
      simpa [whole] using down
  unfold resolvePath
  rw [isAbsolute_text proper,absolute]
  cases links <;> exact leads _

theorem evalSymlinks_ok (done : evalSymlinks fs path = .ok resolved) :
    ∃ target, resolvePath fs evalLinks path = .ok target ∧ target.Proper ∧ resolved = target.text := by
  unfold evalSymlinks at done
  cases reached : resolvePath fs evalLinks path with
  | error cause => simp [reached,Except.map] at done
  | ok target =>
    rw [reached] at done
    exact ⟨target,rfl,resolvePath_proper reached,(Except.ok.inj done).symm⟩

theorem opens_ok (done : opens fs path = .ok location) :
    ∃ target, resolvePath fs openLinks path = .ok target ∧ location = fs.location target := by
  unfold opens at done
  split at done
  · simp at done
  · cases reached : resolvePath fs openLinks path with
    | error cause => simp [reached,Except.map] at done
    | ok target =>
      rw [reached] at done
      exact ⟨target,rfl,(Except.ok.inj done).symm⟩

/-- What the system reaches, EvalSymlinks reaches as well. -/
theorem evalSymlinks_of_opens (done : opens fs path = .ok location) :
    ∃ target, evalSymlinks fs path = .ok target.text ∧ fs.location target = location := by
  obtain ⟨target,reached,rfl⟩ := opens_ok done
  refine ⟨target,?_,rfl⟩
  unfold evalSymlinks
  rw [show resolvePath fs evalLinks path = .ok target from resolve_mono (by decide) reached]
  rfl

/-- The path that EvalSymlinks gives for a path from the root is opened where it says. -/
theorem opens_evaluated {target : Place} (rooted : isAbsolute path = true)
    (reached : resolvePath fs evalLinks path = .ok target) : target.absolute = true ∧ opens fs target.text = .ok target.names := by
  have grounded := resolvePath_grounded rooted reached
  have proper := resolvePath_proper reached
  refine ⟨grounded.1,?_⟩
  have filled : target.text ≠ [] := by
    unfold Place.text
    rw [if_pos grounded.1]
    simp
  unfold opens
  rw [if_neg filled,resolvePath_text grounded proper]
  simp [Except.map,FileSystem.location,grounded.1]

theorem enter_location (fs : FileSystem) (p : Place) (part : List Char) :
    (⟨true,0,fs.location p⟩ : Place).enter part = ⟨true,0,fs.location (p.enter part)⟩ := by
  have up (names : List (List Char)) : (⟨true,0,names⟩ : Place).enter ['.','.'] = ⟨true,0,names.tail⟩ := by
    cases names <;> rfl
  by_cases ordinary : Ordinary part
  · rw [enter_ordinary _ ordinary,enter_ordinary _ ordinary]
    unfold FileSystem.location
    dsimp only
    split <;> rfl
  · by_cases still : part = [] ∨ part = ['.']
    · unfold Place.enter
      rw [if_pos still,if_pos still]
    · obtain rfl : part = ['.','.'] := by
        by_contra other
        exact ordinary ⟨(not_or.mp still).1,(not_or.mp still).2,other⟩
      rw [up]
      obtain ⟨absolute,ups,names⟩ := p
      cases absolute with
      | true =>
        cases names <;> rfl
      | false =>
        cases names with
        | cons name above => rfl
        | nil =>
          have deeper : fs.location ((⟨false,ups,[]⟩ : Place).enter ['.','.']) = fs.cwd.drop (ups + 1) := rfl
          have here : fs.location ⟨false,ups,[]⟩ = fs.cwd.drop ups := rfl
          rw [deeper,here,List.tail_drop]

theorem descend_location (same : ∀ p parts q, follow p parts = .ok q →
      more ⟨true,0,fs.location p⟩ parts = .ok ⟨true,0,fs.location q⟩)
    (done : descend fs follow p parts = .ok q) :
    descend fs more ⟨true,0,fs.location p⟩ parts = .ok ⟨true,0,fs.location q⟩ := by
  induction parts generalizing p with
  | nil =>
    obtain rfl := Except.ok.inj done
    rfl
  | cons part rest ih =>
    have located : fs.location ⟨true,0,fs.location p⟩ = fs.location p := rfl
    unfold descend at done ⊢
    rw [located,enter_location]
    split at done
    · rename_i ordinary
      rw [if_pos ordinary]
      split at done
      · simp at done
      · have further := same _ _ _ done
        split
        · rename_i rooted
          rwa [if_pos rooted] at further
        · rename_i relative
          rwa [if_neg relative] at further
      · split at done
        · rename_i none
          obtain rfl := Except.ok.inj done
          exact if_pos none
        · simp at done
      · exact ih done
    · rename_i special
      rw [if_neg special]
      exact ih done

/-- A path leads on from a location, whatever the place is called. -/
theorem resolve_location (done : resolve fs links p parts = .ok q) :
    resolve fs links ⟨true,0,fs.location p⟩ parts = .ok ⟨true,0,fs.location q⟩ := by
  induction links generalizing p parts q with
  | zero => exact descend_location (fun _ _ _ failed => by simp at failed) done
  | succ links ih => exact descend_location (fun _ _ _ further => ih further) done

/-- Without a link to follow, a path leads where its text says. -/
theorem resolve_zero (done : resolve fs 0 p parts = .ok q) : q = walk p parts := by
  unfold resolve at done
  induction parts generalizing p with
  | nil => exact (Except.ok.inj done).symm
  | cons part rest ih =>
    have next : walk p (part :: rest) = walk (p.enter part) rest := rfl
    rw [next]
    unfold descend at done
    split at done
    · split at done
      · simp at done
      · simp at done
      · split at done
        · rename_i none
          rw [none]
          exact (Except.ok.inj done).symm
        · simp at done
      · exact ih done
    · exact ih done

theorem descend_append {before after : List (List Char)}
    (first : descend fs (fun _ _ => .error .tooManyLinks) p before = .ok q)
    (done : descend fs follow p (before ++ after) = .ok q') : descend fs follow q after = .ok q' := by
  induction before generalizing p with
  | nil =>
    obtain rfl := Except.ok.inj first
    exact done
  | cons part rest ih =>
    rw [List.cons_append] at done
    unfold descend at first done
    split at first
    · rename_i ordinary
      rw [if_pos ordinary] at done
      split at first
      · simp at first
      · simp at first
      · rename_i info found
        rw [found] at done
        dsimp only at done
        split at first
        · rename_i none
          obtain rfl := Except.ok.inj first
          rw [none,List.nil_append] at done
          split at done
          · rename_i last
            rw [last]
            exact done
          · simp at done
        · simp at first
      · rename_i info entries found
        rw [found] at done
        exact ih first done
    · rename_i special
      rw [if_neg special] at done
      exact ih first done

/-- Less is written, but nothing that leads anywhere is left out. -/
inductive Drops : List (List Char) → List (List Char) → Prop where
  | nil : Drops [] []
  | keep {parts fewer} (part : List Char) (rest : Drops parts fewer) : Drops (part :: parts) (part :: fewer)
  | drop {parts fewer part} (still : part = [] ∨ part = ['.']) (rest : Drops parts fewer) : Drops (part :: parts) fewer

theorem Drops.after {parts fewer : List (List Char)} (drops : Drops parts fewer) (before : List (List Char)) :
    Drops (before ++ parts) (before ++ fewer) := by
  induction before with
  | nil => exact drops
  | cons part before ih => exact .keep part ih

theorem descend_drops {fewer : List (List Char)}
    (grows : ∀ p parts fewer q, Drops parts fewer → follow p parts = .ok q → more p fewer = .ok q)
    (drops : Drops parts fewer) (done : descend fs follow p parts = .ok q) : descend fs more p fewer = .ok q := by
  induction drops generalizing p with
  | nil => exact done
  | @keep parts fewer part rest ih =>
    unfold descend at done ⊢
    split at done
    · rename_i ordinary
      rw [if_pos ordinary]
      split at done
      · simp at done
      · exact grows _ _ _ _ (rest.after _) done
      · split at done
        · rename_i none
          subst none
          cases rest
          exact done
        · simp at done
      · exact ih done
    · rename_i special
      rw [if_neg special]
      exact ih done
  | @drop parts fewer part still rest ih =>
    have special : ¬Ordinary part := fun ordinary => still.elim ordinary.1 ordinary.2.1
    have stays : p.enter part = p := if_pos still
    unfold descend at done
    rw [if_neg special,stays] at done
    exact ih done

theorem resolve_drops {fewer : List (List Char)} (drops : Drops parts fewer) (done : resolve fs links p parts = .ok q) :
    resolve fs links p fewer = .ok q := by
  induction links generalizing p parts fewer q with
  | zero => exact descend_drops (fun _ _ _ _ _ failed => by simp at failed) drops done
  | succ links ih => exact descend_drops (fun _ _ _ _ drops further => ih drops further) drops done

end FileTree
