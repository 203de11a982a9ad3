import Vigile.GoBytes
import Vigile.SelfUpdate

/-! The intent that updates a worker: a binary is downloaded to the staging file, checked against the checksum that was
published for it, and promoted. -/
namespace Vigile.UpdateIntent

open Go.Bytes
open SelfUpdate (Disk Op Outcome UpdatePendingState promoteStagedRelease)

/-- `hex.EncodeToString` of SHA-256. -/
structure Hash where
  digest : List UInt8 → List UInt8
  length_digest : ∀ content, (digest content).length = 64
  hex_digest : ∀ content, ∀ b ∈ digest content, 48 ≤ b ∧ b ≤ 57 ∨ 97 ≤ b ∧ b ≤ 102

/-- What a GET ends with: no request, no answer, or a status and a body, which may break off. -/
inductive Response where
  | unsent
  | lost
  | answer (status : Nat) (body : List UInt8) (broken : Bool)

structure ReleaseManifest where
  sha256 : List UInt8
  sizeBytes : Nat

structure StagingResult where
  stagedPath : String
  sha256 : List UInt8
  sizeBytes : Nat

inductive StageError where
  | directory
  | request
  | download
  | status (code : Nat)
  | file
  | copy
  | size (expected got : Nat)
  | mismatch (expected got : List UInt8)

inductive UpdateError where
  | executable
  | checksumRequest
  | checksum
  | checksumStatus (code : Nat)
  | checksumBody
  | staging (cause : StageError)
  | promote

/-- How the operations on the disk go: a write may stop after so many bytes. -/
structure Faults where
  made : Bool
  fallback : Bool
  opened : Bool
  written : Option Nat
  removed : Bool
  marked : Bool
  now : ℚ
  promotion : Op → Outcome (List UInt8)

abbrev Files := Disk (List UInt8)

/-- The deferred clean-up, and the removals before it. -/
def unstage (f : Faults) (path : String) (d : Files) : Files := if f.removed then d.setFile path none else d

def stageRelease (h : Hash) (f : Faults) (download : Response) (manifest : ReleaseManifest) (d : Files) :
    Files × Except StageError StagingResult :=
  if !f.made && !f.fallback then (d,.error .directory)
  else
    let path := SelfUpdate.stagedPath f.made
    let d := {d with varDir := d.varDir || f.made}
    match download with
    | .unsent => (unstage f path d,.error .request)
    | .lost => (unstage f path d,.error .download)
    | .answer status body broken =>
      if status ≠ 200 then (unstage f path d,.error (.status status))
      else if !f.opened then (unstage f path d,.error .file)
      else
        -- an error of Close is only logged
        let content := match f.written with
          | some n => body.take n
          | none => body
        let d := d.setFile path (some content)
        if broken || f.written.isSome then (unstage f path d,.error .copy)
        else if 0 < manifest.sizeBytes ∧ content.length ≠ manifest.sizeBytes then
          (unstage f path d,.error (.size manifest.sizeBytes content.length))
        else
          let actualHash := h.digest content
          if manifest.sha256 ≠ [] ∧ actualHash ≠ manifest.sha256 then
            (unstage f path d,.error (.mismatch manifest.sha256 actualHash))
          else (d,.ok ⟨path,actualHash,content.length⟩)

def expectedHash (csBytes : List UInt8) : List UInt8 := trimSpace ((csBytes.splitOn 32).headD [])

structure Request where
  execPath : Option String
  checksum : Response
  download : Response
  faults : Faults
  disk : Files

structure Run where
  disk : Files
  promoted : Option (List UInt8)
  result : Except UpdateError Unit

def handleUpdateWorker (h : Hash) (r : Request) : Run :=
  match r.execPath with
  | none => ⟨r.disk,none,.error .executable⟩
  | some execPath =>
    match r.checksum with
    | .unsent => ⟨r.disk,none,.error .checksumRequest⟩
    | .lost => ⟨r.disk,none,.error .checksum⟩
    | .answer status csBytes broken =>
      if status ≠ 200 then ⟨r.disk,none,.error (.checksumStatus status)⟩
      else if broken then ⟨r.disk,none,.error .checksumBody⟩
      else
        match stageRelease h r.faults r.download ⟨expectedHash csBytes,0⟩ r.disk with
        | (d,.error cause) => ⟨d,none,.error (.staging cause)⟩
        | (d,.ok staged) =>
          let marked := if r.faults.marked then d.setMarker (some ⟨r.faults.now,false,0⟩) else d
          let content := marked.files staged.stagedPath
          match Disk.run r.faults.promotion (promoteStagedRelease staged.stagedPath "latest" execPath) marked with
          | (d,some true) => ⟨d,content,.ok ()⟩
          | (d,_) => ⟨d,content,.error .promote⟩

/-! What it is for -/

def published (csBytes : List UInt8) : Option (List UInt8) := (fields csBytes).head?

/-- Both answers came whole, and the binary is the one whose digest was published. -/
def Request.Matching (h : Hash) (r : Request) : Prop :=
  ∃ csBytes content, r.checksum = .answer 200 csBytes false ∧ r.download = .answer 200 content false ∧
    published csBytes = some (h.digest content)

/-- Only such a binary is promoted, and every other answer leaves the executable and the markers as they were. -/
def Request.Lawful (h : Hash) (r : Request) : Prop :=
  let run := handleUpdateWorker h r
  (∀ content, run.promoted = some content →
    ∃ csBytes, r.checksum = .answer 200 csBytes false ∧ published csBytes = some (h.digest content)) ∧
  (¬r.Matching h → run.disk.pending = r.disk.pending ∧
    ∀ execPath ∈ r.execPath, execPath ∉ SelfUpdate.stagedPaths → run.disk.files execPath = r.disk.files execPath)

/-- The binary reaches the staging file. -/
def Request.Stored (r : Request) : Prop :=
  r.execPath.isSome ∧ (r.faults.made ∨ r.faults.fallback) ∧ r.faults.opened ∧ r.faults.written = none

/-- Where a whole checksum text has nothing before its first blank, the digest that follows is right all the same. -/
def Request.Checked (h : Hash) (r : Request) : Prop :=
  ∀ csBytes content, r.checksum = .answer 200 csBytes false → r.download = .answer 200 content false → r.Stored →
    expectedHash csBytes = [] → published csBytes = some (h.digest content)

variable {h : Hash} {f : Faults} {r : Request} {d d' : Files} {path : String} {csBytes content : List UInt8}

theorem plain_digest (h : Hash) (content : List UInt8) : Plain (h.digest content) := by
  refine ⟨List.ne_nil_of_length_pos (by rw [h.length_digest]; decide),fun b member => ?_⟩
  rcases h.hex_digest content b member with ⟨low,high⟩ | ⟨low,high⟩
  all_goals exact ⟨UInt8.le_trans (by decide) low,UInt8.lt_of_le_of_lt high (by decide)⟩

theorem published_expected (expected : expectedHash csBytes = h.digest content) :
    published csBytes = some (h.digest content) := by
  obtain ⟨front,others,cut⟩ := List.exists_cons_of_ne_nil (List.splitOn_ne_nil (32 : UInt8) csBytes)
  have joined := TextLines.join_split (32 : UInt8) csBytes
  unfold expectedHash at expected
  rw [cut,List.headD_cons] at expected
  rw [cut] at joined
  have text : ∃ tail, csBytes = front ++ tail ∧ (tail = [] ∨ ∃ rest, tail = 32 :: rest) := by
    by_cases last : others = []
    · subst last
      exact ⟨[],by rw [← joined]; simp,.inl rfl⟩
    · refine ⟨32 :: TextLines.join 32 others,?_,.inr ⟨_,rfl⟩⟩
      rw [← joined,← List.singleton_append,TextLines.join_append (by simp) last,TextLines.join_singleton]
  obtain ⟨tail,rfl,ends⟩ := text
  unfold published
  rw [head_fields (by rw [expected]; exact plain_digest h content) ends,expected]

/-- An error of the staging leaves everything but the staging file. -/
def Untouched (d d' : Files) : Prop :=
  d'.pending = d.pending ∧ ∀ execPath ∉ SelfUpdate.stagedPaths, d'.files execPath = d.files execPath

theorem untouched_setFile (made : Bool) (content : Option (List UInt8)) (varDir : Bool) :
    Untouched d ({d with varDir}.setFile (SelfUpdate.stagedPath made) content) := by
  refine ⟨rfl,fun execPath other => ?_⟩
  have differ : execPath ≠ SelfUpdate.stagedPath made := by
    rintro rfl
    cases made <;> exact other (by simp [SelfUpdate.stagedPaths])
  simp [Disk.setFile,differ]

theorem untouched_unstage (f : Faults) (made varDir : Bool) : Untouched d (unstage f (SelfUpdate.stagedPath made) {d with varDir}) := by
  unfold unstage
  split
  · exact untouched_setFile made none varDir
  · exact ⟨rfl,fun _ _ => rfl⟩

theorem untouched_removed (f : Faults) (made varDir : Bool) (content : Option (List UInt8)) :
    Untouched d (unstage f (SelfUpdate.stagedPath made) ({d with varDir}.setFile (SelfUpdate.stagedPath made) content)) := by
  unfold unstage
  split
  · refine ⟨rfl,fun execPath other => ?_⟩
    have differ : execPath ≠ SelfUpdate.stagedPath made := by
      rintro rfl
      cases made <;> exact other (by simp [SelfUpdate.stagedPaths])
    simp [Disk.setFile,differ]
  · exact untouched_setFile made content varDir

/-- A staging ends with an error, or with the file that was sent, whose digest is the expected one unless none was
expected. -/
theorem stageRelease_cases (h : Hash) (f : Faults) (download : Response) (sha256 : List UInt8) (d : Files) :
    (∃ d' cause, stageRelease h f download ⟨sha256,0⟩ d = (d',.error cause) ∧ Untouched d d') ∨
    ∃ d' content staged, stageRelease h f download ⟨sha256,0⟩ d = (d',.ok staged) ∧ download = .answer 200 content false ∧
      (f.made ∨ f.fallback) ∧ f.opened ∧ f.written = none ∧ d'.files staged.stagedPath = some content ∧
      (sha256 = [] ∨ h.digest content = sha256) := by
  unfold stageRelease
  by_cases directory : (!f.made && !f.fallback) = true
  · rw [if_pos directory]
    exact .inl ⟨_,_,rfl,rfl,fun _ _ => rfl⟩
  have made : f.made = true ∨ f.fallback = true := by
    by_contra neither
    simp_all
  rw [if_neg directory]
  cases download with
  | unsent | lost => exact .inl ⟨_,_,rfl,untouched_unstage f _ _⟩
  | answer status body broken =>
    dsimp only
    by_cases fine : status ≠ 200
    · rw [if_pos fine]
      exact .inl ⟨_,_,rfl,untouched_unstage f _ _⟩
    rw [if_neg fine]
    cases opened : f.opened with
    | false => exact .inl ⟨_,_,rfl,untouched_unstage f _ _⟩
    | true =>
      rw [if_neg (by decide)]
      cases written : f.written with
      | some n =>
        rw [if_pos (by simp)]
        exact .inl ⟨_,_,rfl,untouched_removed f _ _ _⟩
      | none =>
        cases broken with
        | true => exact .inl ⟨_,_,rfl,untouched_removed f _ _ _⟩
        | false =>
          rw [if_neg (by simp),if_neg (by simp)]
          by_cases mismatch : sha256 ≠ [] ∧ h.digest body ≠ sha256
          · rw [if_pos mismatch]
            exact .inl ⟨_,_,rfl,untouched_removed f _ _ _⟩
          · rw [if_neg mismatch]
            refine .inr ⟨_,body,_,rfl,by rw [not_not.mp fine],made,rfl,rfl,if_pos rfl,?_⟩
            exact or_iff_not_imp_left.mpr fun filled => not_not.mp fun other => mismatch ⟨filled,other⟩

/-- Without an expected digest, whatever is stored is staged. -/
theorem stageRelease_unchecked (h : Hash) (d : Files) (made : f.made ∨ f.fallback) (opened : f.opened = true)
    (written : f.written = none) : ∃ d' staged, stageRelease h f (.answer 200 content false) ⟨[],0⟩ d = (d',.ok staged) ∧
      d'.files staged.stagedPath = some content := by
  have directory : ¬(!f.made && !f.fallback) = true := by
    intro neither
    simp_all
  unfold stageRelease
  rw [if_neg directory]
  dsimp only
  rw [if_neg (by simp),opened,if_neg (by decide),written,if_neg (by simp),if_neg (by simp),if_neg (by simp)]
  exact ⟨_,_,rfl,if_pos rfl⟩

/-- With a checksum text and a staged binary, the binary is promoted. -/
theorem handleUpdateWorker_staged {execPath : String} {staged : StagingResult} (executable : r.execPath = some execPath)
    (checksum : r.checksum = .answer 200 csBytes false)
    (stagedAs : stageRelease h r.faults r.download ⟨expectedHash csBytes,0⟩ r.disk = (d',.ok staged))
    (stored : d'.files staged.stagedPath = some content) : (handleUpdateWorker h r).promoted = some content := by
  unfold handleUpdateWorker
  rw [executable,checksum]
  dsimp only
  rw [if_neg (by simp),if_neg (by simp),stagedAs]
  dsimp only
  have kept : (if r.faults.marked then d'.setMarker (some ⟨r.faults.now,false,0⟩) else d').files staged.stagedPath =
      some content := by
    split
    · exact stored
    · exact stored
  split
  · exact kept
  · exact kept

/-- Anything else leaves all but the staging file. -/
theorem handleUpdateWorker_cases (h : Hash) (r : Request) :
    ((handleUpdateWorker h r).promoted = none ∧ Untouched r.disk (handleUpdateWorker h r).disk) ∨
    ∃ csBytes content, r.checksum = .answer 200 csBytes false ∧ r.download = .answer 200 content false ∧ r.Stored ∧
      (expectedHash csBytes = [] ∨ h.digest content = expectedHash csBytes) ∧
      (handleUpdateWorker h r).promoted = some content := by
  have same : Untouched r.disk r.disk := ⟨rfl,fun _ _ => rfl⟩
  cases executable : r.execPath with
  | none =>
    left
    unfold handleUpdateWorker
    rw [executable]
    exact ⟨rfl,same⟩
  | some execPath =>
    cases checksum : r.checksum with
    | unsent | lost =>
      left
      unfold handleUpdateWorker
      rw [executable,checksum]
      exact ⟨rfl,same⟩
    | answer status csBytes broken =>
      by_cases fine : status ≠ 200
      · left
        unfold handleUpdateWorker
        rw [executable,checksum]
        dsimp only
        rw [if_pos fine]
        exact ⟨rfl,same⟩
      cases broken with
      | true =>
        left
        unfold handleUpdateWorker
        rw [executable,checksum]
        dsimp only
        rw [if_neg fine,if_pos rfl]
        exact ⟨rfl,same⟩
      | false =>
        obtain rfl := not_not.mp fine
        rcases stageRelease_cases h r.faults r.download (expectedHash csBytes) r.disk with
          ⟨d',cause,failed,untouched⟩ | ⟨d',content,staged,stagedAs,download,made,opened,written,stored,right⟩
        · left
          unfold handleUpdateWorker
          rw [executable,checksum]
          dsimp only
          rw [if_neg fine,if_neg (by decide),failed]
          exact ⟨rfl,untouched⟩
        · exact .inr ⟨csBytes,content,rfl,download,⟨by rw [executable]; rfl,made,opened,written⟩,right,
            handleUpdateWorker_staged executable checksum stagedAs stored⟩

/-- The update is lawful exactly where a checksum text that begins with a blank is followed by the right digest. -/
theorem update_lawful_iff (h : Hash) (r : Request) : r.Lawful h ↔ r.Checked h := by
  constructor
  · intro lawful csBytes content checksum download stored blank
    obtain ⟨isSome,made,opened,written⟩ := stored
    obtain ⟨execPath,executable⟩ := Option.isSome_iff_exists.mp isSome
    obtain ⟨d',staged,stagedAs,file⟩ : ∃ d' staged, stageRelease h r.faults (.answer 200 content false) ⟨[],0⟩ r.disk =
        (d',.ok staged) ∧ d'.files staged.stagedPath = some content :=
      stageRelease_unchecked h r.disk made opened written
    rw [← blank,← download] at stagedAs
    obtain ⟨csBytes',same,right⟩ := lawful.1 content (handleUpdateWorker_staged executable checksum stagedAs file)
    rw [checksum] at same
    injection same with _ bytes _
    rwa [bytes]
  · intro checked
    rcases handleUpdateWorker_cases h r with ⟨nothing,untouched⟩ | ⟨csBytes,content,checksum,download,stored,right,promoted⟩
    · refine ⟨fun content some => absurd (nothing.symm.trans some) (by simp),fun _ => ⟨untouched.1,?_⟩⟩
      exact fun execPath _ other => untouched.2 execPath other
    · have matching : published csBytes = some (h.digest content) :=
        right.elim (checked csBytes content checksum download stored) fun same => published_expected same.symm
      refine ⟨fun content' some => ⟨csBytes,checksum,?_⟩,fun other => absurd ⟨csBytes,content,checksum,download,matching⟩ other⟩
      obtain rfl := Option.some.inj (promoted.symm.trans some)
      exact matching

def abcHash : Hash where
  digest _ := "ba7816bf8f01cfea414140de5dae2223b00361a396177a9cb410ff61f20015ad".toUTF8.data.toList
  length_digest _ := by decide +kernel
  hex_digest _ := by decide +kernel

def emptyChecksum : Request where
  execPath := some "/usr/local/bin/vigile-worker"
  checksum := .answer 200 [] false
  download := .answer 200 "abc".toUTF8.data.toList false
  faults := ⟨true,true,true,none,true,true,0,fun _ => .ok⟩
  disk := ⟨fun path => if path = "/usr/local/bin/vigile-worker" then some [1] else none,fun _ => none,true,fun _ => none,[]⟩

/-- Whatever is sent is promoted. -/
theorem emptyChecksum_unlawful : ¬emptyChecksum.Lawful abcHash := by
  intro lawful
  obtain ⟨d',staged,stagedAs,file⟩ : ∃ d' staged, stageRelease abcHash emptyChecksum.faults
      (.answer 200 "abc".toUTF8.data.toList false) ⟨[],0⟩ emptyChecksum.disk = (d',.ok staged) ∧
        d'.files staged.stagedPath = some "abc".toUTF8.data.toList :=
    stageRelease_unchecked abcHash emptyChecksum.disk (.inl rfl) rfl rfl
  have blank : expectedHash [] = [] := by
    decide +kernel
  rw [← blank] at stagedAs
  have checksum : emptyChecksum.checksum = .answer 200 [] false := rfl
  obtain ⟨csBytes,same,right⟩ := lawful.1 _ (handleUpdateWorker_staged rfl checksum stagedAs file)
  injection same with _ bytes _
  rw [← bytes] at right
  have nothing : published [] = none := by
    decide +kernel
  exact absurd (nothing.symm.trans right) (by simp)

end Vigile.UpdateIntent
