import Mathlib.Logic.Function.Basic
import Frond.Cli.Program
import Frond.Proofs.Files.Making
import Frond.Proofs.Number.Digits

/-!
Files for the frames of a drawing. Their names differ, so that each lies at a place of its own in
the directory that was made for them, and none of them is written over by a later one.
-/

namespace Frond

theorem frameFileName_injective : Function.Injective frameFileName := by
  intro m n same
  have digits : (Nat.toDigits 10 m).leftpad 3 '0' = (Nat.toDigits 10 n).leftpad 3 '0' := by
    have letters := congrArg String.toList same
    simpa only [frameFileName, String.toList_append, String.toList_ofList, List.append_assoc,
      List.append_cancel_left_eq, List.append_cancel_right_eq] using letters
  have value := congrArg (Nat.ofDigitChars 10 · 0) digits
  simpa only [ofDigitChars_leftpad] using value

theorem isFileName_frameFileName (number : Nat) : Files.IsFileName (frameFileName number) := by
  have other (name : String) (first : name.toList.head? ≠ some 'f') :
      frameFileName number ≠ name := by
    rintro rfl
    apply first
    simp [frameFileName, String.toList_append]
  refine ⟨?_, ?_, ?_⟩
  · intro slash
    simp only [frameFileName, String.toList_append, String.toList_ofList, List.mem_append] at slash
    rcases slash with (before | inside) | after
    · revert before
      decide
    · cases isDigit_of_mem_leftpad inside
    · revert after
      decide
  · rw [Files.isStill, Bool.or_eq_false_iff, beq_eq_false_iff_ne, beq_eq_false_iff_ne]
    exact ⟨other "" (by decide), other "." (by decide)⟩
  · exact other ".." (by decide)

namespace FileTree

/-- Texts lie at their places, over what there was before, and nothing else has changed. -/
structure Filled (tree : FileTree) (files : List (Place × String)) (after : FileTree) : Prop where
  held : ∀ file ∈ files, ∃ node,
    overwritten? (tree.find? file.1) file.2 = .ok node ∧ after.find? file.1 = some node
  others : ∀ place, (∀ file ∈ files, file.1 ≠ place) → after.find? place = tree.find? place

theorem filled_of_put {tree : FileTree} {place : Place} {text : String} {node : FileNode}
    (below : place ≠ []) (held : overwritten? (tree.find? place) text = .ok node) :
    Filled tree [(place, text)] (tree.put place node) := by
  constructor
  · intro file member
    rw [List.mem_singleton.mp member]
    exact ⟨node, held, find?_put_self tree node below⟩
  · intro other foreign
    exact find?_put_of_ne tree node (foreign _ List.mem_cons_self).symm

/-- A text that is written lies at the place that its path leads to. -/
theorem filled_of_write {tree next : FileTree} {path text : String}
    (written : tree.write path text = .ok next) :
    ∃ place, tree.place? path = .ok place ∧ Filled tree [(place, text)] next := by
  obtain ⟨place, node, leads, held, rfl⟩ := write_eq_ok_iff.mp written
  exact ⟨place, leads, filled_of_put (ne_nil_of_place? leads) held⟩

/-- Files are filled one after the other. The later ones lie elsewhere than the first. -/
theorem Filled.cons {tree next after : FileTree} {place : Place} {text : String}
    {files : List (Place × String)} (first : Filled tree [(place, text)] next)
    (rest : Filled next files after) (apart : ∀ file ∈ files, file.1 ≠ place) :
    Filled tree ((place, text) :: files) after := by
  constructor
  · intro file member
    rcases List.mem_cons.mp member with rfl | later
    · obtain ⟨node, held, lies⟩ := first.held _ List.mem_cons_self
      exact ⟨node, held, (rest.others _ apart).trans lies⟩
    · obtain ⟨node, held, lies⟩ := rest.held file later
      rw [first.others file.1] at held
      · exact ⟨node, held, lies⟩
      · intro other member same
        rw [List.mem_singleton.mp member] at same
        exact apart file later same.symm
  · intro other foreign
    rw [rest.others other fun file member => foreign file (List.mem_cons_of_mem _ member)]
    apply first.others
    intro file member
    rw [List.mem_singleton.mp member]
    exact foreign _ List.mem_cons_self

end FileTree

namespace Cli

open FileTree (Dotted Filled Made Stands alike_write write_eq_ok_iff place?_join_iff run_bind_eq)

/-- The files of frames in a directory, numbered from the given number on. -/
def frameFiles (directory : String) (number : Nat) (documents : List String) :
    List (String × String) :=
  (documents.zipIdx number).map fun frame => (Files.join directory (frameFileName frame.2), frame.1)

/-- The places of these files, for a directory that stands at a place. -/
def framePlaces (inner : Place) (number : Nat) (documents : List String) : List (Place × String) :=
  (documents.zipIdx number).map fun frame => (inner ++ [frameFileName frame.2], frame.1)

theorem frameFiles_cons (directory : String) (number : Nat) (document : String)
    (rest : List String) :
    frameFiles directory number (document :: rest) =
      (Files.join directory (frameFileName number), document) ::
        frameFiles directory (number + 1) rest := by
  rw [frameFiles, List.zipIdx_cons, List.map_cons, frameFiles]

theorem framePlaces_cons (inner : Place) (number : Nat) (document : String) (rest : List String) :
    framePlaces inner number (document :: rest) =
      (inner ++ [frameFileName number], document) :: framePlaces inner (number + 1) rest := by
  rw [framePlaces, List.zipIdx_cons, List.map_cons, framePlaces]

theorem frame_ne_of_lt (inner : Place) {number later : Nat} (less : number < later) :
    inner ++ [frameFileName later] ≠ inner ++ [frameFileName number] := by
  intro same
  have names := List.append_cancel_left same
  exact less.ne' (frameFileName_injective (List.singleton_inj.mp names))

variable {directory document : String} {inner : Place} {number : Nat} {documents : List String}
  {tree next after : FileTree}

theorem write_frame_iff (stands : Stands tree directory inner) :
    tree.write (Files.join directory (frameFileName number)) document = .ok next ↔
      (Files.join directory (frameFileName number)).utf8ByteSize ≤ FileTree.maxPathSize ∧
        (frameFileName number).utf8ByteSize ≤ FileTree.maxNameSize ∧
        ∃ node, FileTree.overwritten? (tree.find? (inner ++ [frameFileName number])) document =
          .ok node ∧ next = tree.put (inner ++ [frameFileName number]) node := by
  rw [write_eq_ok_iff]
  simp only [place?_join_iff (isFileName_frameFileName number) stands]
  constructor
  · rintro ⟨place, node, ⟨short, fits, rfl⟩, held, rfl⟩
    exact ⟨short, fits, node, held, rfl⟩
  · rintro ⟨short, fits, node, held, rfl⟩
    exact ⟨_, node, ⟨short, fits, rfl⟩, held, rfl⟩

theorem run_writeFrames_cons (directory : String) (number : Nat) (document : String)
    (rest : List String) (tree : FileTree) :
    (writeFrames (m := StateM FileTree) directory number (document :: rest)).run tree =
      match tree.write (Files.join directory (frameFileName number)) document with
      | .ok next => (writeFrames (m := StateM FileTree) directory (number + 1) rest).run next
      | .error e => (.error e, tree) := by
  have ran := FileTree.run_write tree (Files.join directory (frameFileName number)) document
  cases written : tree.write (Files.join directory (frameFileName number)) document with
  | error e =>
      rw [written] at ran
      rw [writeFrames, FileTree.run_bind_eq ran]
      rfl
  | ok next =>
      rw [written] at ran
      rw [writeFrames, FileTree.run_bind_eq ran]

/-- Where each file could be written alone, all of them can be. -/
theorem writeFrames_of_writable (stands : Stands tree directory inner)
    (writable : ∀ file ∈ frameFiles directory number documents,
      ∃ next, tree.write file.1 file.2 = .ok next) :
    ∃ after, (writeFrames (m := StateM FileTree) directory number documents).run tree =
      (.ok (), after) := by
  induction documents generalizing number tree with
  | nil => exact ⟨tree, rfl⟩
  | cons document rest ih =>
      rw [frameFiles_cons] at writable
      obtain ⟨next, first⟩ := writable _ List.mem_cons_self
      have kept := (alike_write first).stands stands
      rw [run_writeFrames_cons, first]
      apply ih kept
      intro file later
      obtain ⟨last, alone⟩ := writable file (List.mem_cons_of_mem _ later)
      obtain ⟨⟨text, index⟩, listed, rfl⟩ := List.mem_map.mp later
      obtain ⟨_, _, node, _, rfl⟩ := (write_frame_iff stands).mp first
      obtain ⟨short, fits, held⟩ := (write_frame_iff stands).mp alone
      -- The other files lie elsewhere, where nothing has changed.
      rw [← FileTree.find?_put_of_ne tree node (frame_ne_of_lt inner (List.mem_zipIdx listed).1)]
        at held
      obtain ⟨node', held, _⟩ := held
      exact ⟨_, (write_frame_iff kept).mpr ⟨short, fits, node', held, rfl⟩⟩

/-- The frames that are written all lie at their places in the end. -/
theorem filled_of_writeFrames (stands : Stands tree directory inner)
    (written : (writeFrames (m := StateM FileTree) directory number documents).run tree =
      (.ok (), after)) :
    Filled tree (framePlaces inner number documents) after := by
  induction documents generalizing number tree with
  | nil =>
      cases written
      exact ⟨nofun, fun _ _ => rfl⟩
  | cons document rest ih =>
      rw [run_writeFrames_cons] at written
      rw [framePlaces_cons]
      cases first : tree.write (Files.join directory (frameFileName number)) document with
      | error e =>
          rw [first] at written
          cases written
      | ok next =>
          rw [first] at written
          have filled := ih ((alike_write first).stands stands) written
          obtain ⟨_, _, node, held, rfl⟩ := (write_frame_iff stands).mp first
          apply (FileTree.filled_of_put (by simp) held).cons filled
          intro file later
          obtain ⟨⟨text, index⟩, listed, rfl⟩ := List.mem_map.mp later
          exact frame_ne_of_lt inner (List.mem_zipIdx listed).1

/-- A directory is there that was made where it was missing, and documents lie in it as files. -/
def Framed (tree : FileTree) (directory : String) (documents : List String) (after : FileTree) :
    Prop :=
  ∃ inner made, Made tree directory inner made ∧ Filled made (framePlaces inner 1 documents) after

/-- There is room for documents in a directory: it is there or can be made, and each of them could
be written. -/
def Room (tree : FileTree) (directory : String) (documents : List String) : Prop :=
  (Dotted directory → ∃ place, Stands tree directory place) ∧
    ∃ inner made, Made tree directory inner made ∧
      ∀ file ∈ frameFiles directory 1 documents, ∃ next, made.write file.1 file.2 = .ok next

/-- The frames of a session lie in the directory, or the run has failed. It does not fail where
there is room. -/
theorem delivered_runSequence {session : Session} {frames : Frames} {drawn : Session}
    (events : List Event) {palette : Palette}
    (framed : session.frames {} palette = .ok (frames, drawn)) {outcome : Outcome}
    (ran : (runSequence (m := StateM FileTree) session palette directory events).run tree =
      (outcome, after)) :
    (outcome.exitCode = 0 →
      outcome.output = "" ∧ Framed tree directory frames.toList after) ∧
    (Room tree directory frames.toList → outcome.exitCode = 0) := by
  obtain ⟨result, made, created⟩ : ∃ result made,
      (Files.createDirectories (m := StateM FileTree) directory).run tree = (result, made) :=
    ⟨_, _, rfl⟩
  rw [runSequence, run_bind_eq created] at ran
  cases result with
  | error e =>
      cases ran
      refine ⟨nofun, ?_⟩
      rintro ⟨named, inner, other, possible, _⟩
      obtain ⟨made', again⟩ := FileTree.exists_createDirectories possible named
      rw [created] at again
      cases again
  | ok =>
      obtain ⟨inner, standing⟩ := FileTree.made_createDirectories created
      obtain ⟨result, last, written⟩ : ∃ result last,
          (writeFrames (m := StateM FileTree) directory 1 frames.toList).run made =
            (result, last) := ⟨_, _, rfl⟩
      dsimp only at ran
      rw [framed] at ran
      dsimp only at ran
      rw [run_bind_eq written] at ran
      cases result with
      | ok =>
          cases ran
          exact ⟨fun _ => ⟨rfl, inner, made, standing,
            filled_of_writeFrames standing.stands written⟩, fun _ => rfl⟩
      | error e =>
          cases ran
          refine ⟨nofun, ?_⟩
          rintro ⟨_, _, other, possible, writable⟩
          obtain ⟨after, again⟩ := writeFrames_of_writable standing.stands fun file member => by
            obtain ⟨next, alone⟩ := writable file member
            obtain ⟨frame, _, rfl⟩ := List.mem_map.mp member
            exact standing.writable possible (isFileName_frameFileName frame.2) alone
          rw [written] at again
          cases again

end Cli

end Frond
