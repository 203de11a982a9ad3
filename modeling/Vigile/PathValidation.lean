import Vigile.LinkResolution

/-! `ValidateAndSanitizePath`: what it lets through, and where the system gets with it. -/
namespace Vigile.PathValidation

open FileTree LexicalPath

def forbiddenSystemPaths : List (List Char) :=
  ["/proc".toList,"/sys".toList,"/dev".toList,"/run".toList]

inductive Rejection where
  | emptyPath
  | notAbsolute (requested : List Char)
  | forbidden (pseudo : List Char)
  | evalSymlinksFailed (cause : Errno)
  | outside (resolved root : List Char)
  deriving DecidableEq

/-- The path itself, or something below it, by its text. -/
def within (path directory : List Char) : Bool := path = directory || (directory ++ ['/']).isPrefixOf path

def cleanRoot (fs : FileSystem) (allowedRoot : List Char) : List Char :=
  match evalSymlinks fs (clean allowedRoot) with
  | .ok resolved => clean resolved
  | .error _ => clean allowedRoot

def unrestricted (fs : FileSystem) (allowedRoot : List Char) : Bool :=
  cleanRoot fs allowedRoot = ['*'] || cleanRoot fs allowedRoot = ['/']

def admits (fs : FileSystem) (allowedRoot resolved : List Char) : Bool :=
  unrestricted fs allowedRoot || within resolved (cleanRoot fs allowedRoot)

def contain (fs : FileSystem) (allowedRoot resolved : List Char) : Except Rejection (List Char) :=
  if admits fs allowedRoot resolved then .ok resolved else .error (.outside resolved (cleanRoot fs allowedRoot))

def validateAndSanitizePath (fs : FileSystem) (requested allowedRoot : List Char) : Except Rejection (List Char) :=
  if requested = [] then .error .emptyPath
  else
    let cleanReq := clean requested
    if !isAbsolute cleanReq then .error (.notAbsolute requested)
    else
      match forbiddenSystemPaths.find? (within cleanReq) with
      | some pseudo => .error (.forbidden pseudo)
      | none =>
        match evalSymlinks fs cleanReq with
        | .ok resolved => contain fs allowedRoot (clean resolved)
        | .error .noEntry => contain fs allowedRoot (clean cleanReq)
        | .error cause => .error (.evalSymlinksFailed cause)

def Forbidden (location : List (List Char)) : Prop :=
  ∃ pseudo ∈ forbiddenSystemPaths, (place pseudo).names <:+ location

def InRoot (fs : FileSystem) (allowedRoot : List Char) (location : List (List Char)) : Prop :=
  ∃ root, resolvePath fs evalLinks (clean allowedRoot) = .ok root ∧ fs.location root <:+ location

/-- Opening what is returned stays in the root, where there is one, and out of what is forbidden. -/
def Safe (fs : FileSystem) (requested allowedRoot : List Char) : Prop :=
  ∀ path, validateAndSanitizePath fs requested allowedRoot = .ok path → ∀ location, opens fs path = .ok location →
    (unrestricted fs allowedRoot = true ∨ InRoot fs allowedRoot location) ∧ ¬Forbidden location

def TurnedDown (fs : FileSystem) (requested allowedRoot resolved : List Char) : Prop :=
  isAbsolute (clean requested) = false ∨ (∃ pseudo ∈ forbiddenSystemPaths, within (clean requested) pseudo = true) ∨
    admits fs allowedRoot resolved = false

variable {fs : FileSystem} {requested allowedRoot path resolved : List Char} {location : List (List Char)}

/-- A path that was let through is that of its target, or nothing can be opened by it. -/
theorem validate_ok (done : validateAndSanitizePath fs requested allowedRoot = .ok path) :
    isAbsolute (clean requested) = true ∧ (∀ pseudo ∈ forbiddenSystemPaths, within (clean requested) pseudo = false) ∧
      admits fs allowedRoot path = true ∧
      (evalSymlinks fs (clean requested) = .ok path ∨
        evalSymlinks fs (clean requested) = .error .noEntry ∧ path = clean requested) := by
  have contained {resolved : List Char} (done : contain fs allowedRoot resolved = .ok path) :
      admits fs allowedRoot path = true ∧ path = resolved := by
    unfold contain at done
    split at done
    · rename_i admitted
      obtain rfl := Except.ok.inj done
      exact ⟨admitted,rfl⟩
    · simp at done
  unfold validateAndSanitizePath at done
  split at done
  · simp at done
  dsimp only at done
  split at done
  · simp at done
  rename_i rooted
  split at done
  · simp at done
  rename_i none
  have allowed : ∀ pseudo ∈ forbiddenSystemPaths, within (clean requested) pseudo = false := by
    simpa using List.find?_eq_none.mp none
  refine ⟨by simpa using rooted,allowed,?_⟩
  split at done
  · rename_i resolved evaluated
    obtain ⟨target,_,proper,rfl⟩ := evalSymlinks_ok evaluated
    obtain ⟨admitted,same⟩ := contained done
    rw [clean_text proper] at same
    exact ⟨admitted,.inl (same ▸ evaluated)⟩
  · rename_i missing
    obtain ⟨admitted,same⟩ := contained done
    rw [clean_clean] at same
    exact ⟨admitted,.inr ⟨missing,same⟩⟩
  · simp at done

theorem validate_of (rooted : isAbsolute (clean requested) = true)
    (allowed : ∀ pseudo ∈ forbiddenSystemPaths, within (clean requested) pseudo = false)
    (evaluated : evalSymlinks fs (clean requested) = .ok path) (admitted : admits fs allowedRoot path = true) :
    validateAndSanitizePath fs requested allowedRoot = .ok path := by
  have filled : requested ≠ [] := by
    rintro rfl
    exact absurd rooted (by decide)
  have none : forbiddenSystemPaths.find? (within (clean requested)) = none :=
    List.find?_eq_none.mpr fun pseudo member => by simp [allowed pseudo member]
  obtain ⟨target,_,proper,rfl⟩ := evalSymlinks_ok evaluated
  unfold validateAndSanitizePath
  rw [if_neg filled]
  dsimp only
  rw [if_neg (by simp [rooted]),none,evaluated]
  dsimp only
  unfold contain
  rw [clean_text proper,if_pos admitted]

/-- What the root admits lies in the real root. -/
theorem inRoot_of_admits {target : Place} (rooted : isAbsolute (clean requested) = true)
    (reached : resolvePath fs evalLinks (clean requested) = .ok target)
    (admitted : admits fs allowedRoot target.text = true) (restricted : unrestricted fs allowedRoot = false) :
    InRoot fs allowedRoot target.names := by
  have grounded := resolvePath_grounded rooted reached
  have proper := resolvePath_proper reached
  have inside : within target.text (cleanRoot fs allowedRoot) = true := by simpa [admits,restricted] using admitted
  have below : target.text = cleanRoot fs allowedRoot ∨ cleanRoot fs allowedRoot ++ ['/'] <+: target.text := by
    simpa [within] using inside
  have inner : cleanRoot fs allowedRoot ≠ ['/'] := by
    intro whole
    simp [unrestricted,whole] at restricted
  unfold cleanRoot at below inner
  cases evaluated : evalSymlinks fs (clean allowedRoot) with
  | ok resolved =>
    obtain ⟨root,found,proper',rfl⟩ := evalSymlinks_ok evaluated
    rw [evaluated] at below inner
    dsimp only at below inner
    rw [clean_text proper'] at below inner
    obtain ⟨absolute,suffix⟩ := names_suffix_of_text proper proper' grounded.1 below inner
    refine ⟨root,found,?_⟩
    unfold FileSystem.location
    rwa [if_pos absolute]
  | error cause =>
    -- a root that cannot be resolved has nothing below it
    rw [evaluated] at below inner
    obtain ⟨absolute,suffix⟩ :=
      names_suffix_of_text proper (place_proper allowedRoot) grounded.1 below inner
    obtain ⟨names,split⟩ := suffix
    have solid : Solid fs.root (place allowedRoot).names := (split ▸ grounded.2.2).above
    have found : resolvePath fs evalLinks (clean allowedRoot) = .ok (place allowedRoot) :=
      resolvePath_text ⟨absolute,(place_proper allowedRoot).rooted absolute,solid⟩ (place_proper allowedRoot)
    simp [evalSymlinks,found,Except.map] at evaluated

/-- A request is handled safely exactly if its links do not lead into a pseudo file system, or it is turned down
anyway. -/
theorem validate_safe_iff (fs : FileSystem) (requested allowedRoot : List Char) : Safe fs requested allowedRoot ↔
    ∀ target, evalSymlinks fs (clean requested) = .ok target → Forbidden (place target).names →
      TurnedDown fs requested allowedRoot target := by
  constructor
  · intro safe path evaluated forbidden
    by_contra accepted
    obtain ⟨rooted,rest⟩ := not_or.mp accepted
    obtain ⟨clear,admitted⟩ := not_or.mp rest
    rw [Bool.not_eq_false] at rooted admitted
    obtain ⟨target,reached,proper,rfl⟩ := evalSymlinks_ok evaluated
    have passes := validate_of rooted (by simpa using clear) evaluated admitted
    rw [place_text proper] at forbidden
    exact (safe _ passes _ (opens_evaluated rooted reached).2).2 forbidden
  · intro harmless path done location opened
    obtain ⟨rooted,allowed,admitted,evaluated | ⟨missing,rfl⟩⟩ := validate_ok done
    · obtain ⟨target,reached,proper,rfl⟩ := evalSymlinks_ok evaluated
      have same := (opens_evaluated rooted reached).2.symm.trans opened
      obtain rfl := Except.ok.inj same
      constructor
      · cases restricted : unrestricted fs allowedRoot with
        | true => exact .inl rfl
        | false => exact .inr (inRoot_of_admits rooted reached admitted restricted)
      · intro forbidden
        rcases harmless _ evaluated ((place_text proper).symm ▸ forbidden) with relative | ⟨pseudo,member,inside⟩ | refused
        · exact absurd (rooted.symm.trans relative) (by decide)
        · exact absurd (inside.symm.trans (allowed pseudo member)) (by decide)
        · exact absurd (admitted.symm.trans refused) (by decide)
    · obtain ⟨target,found,_⟩ := evalSymlinks_of_opens opened
      rw [missing] at found
      contradiction

/-- A tree with a link out of the temporary directory. -/
def linked : FileSystem where
  root := .directory ⟨4096,none⟩ (.cons "proc".toList
    (.directory ⟨0,none⟩ (.cons "version".toList (.file ⟨0,none⟩) .nil))
    (.cons "tmp".toList (.directory ⟨4096,none⟩ (.cons "l".toList (.symlink ⟨5,none⟩ "/proc".toList) .nil)) .nil))
  cwd := []
  solid := trivial
  separate := separate_nil

/-- The link is followed into a pseudo file system. -/
theorem link_unsafe : ¬Safe linked "/tmp/l/version".toList "/".toList := by
  intro safe
  have passes : validateAndSanitizePath linked "/tmp/l/version".toList "/".toList = .ok "/proc/version".toList := by
    decide +kernel
  have opened : opens linked "/proc/version".toList = .ok ["version".toList,"proc".toList] := by
    decide +kernel
  exact (safe _ passes _ opened).2 ⟨"/proc".toList,by decide,by decide⟩

end Vigile.PathValidation
