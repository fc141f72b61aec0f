import Mathlib
import Frond.Proofs.Svg.Entities
import Frond.Proofs.Text.Cutting

/-!
A reader of documents. It cuts a text at the opening brackets and each piece at its closing one,
and refuses a text with any bracket too many. What stands between two brackets is a tag: a name up
to the first blank, and attributes whose values stand between double quotes.
-/

namespace Frond.Svg

/-- A tag as it stands between its brackets, and the text from there to the next one. -/
structure Tag where
  body : List Char
  after : List Char

namespace Tag

def text (tag : Tag) : List Char := '<' :: tag.body ++ '>' :: tag.after

/-- The tag of a piece that follows an opening bracket; there has to be just one closing bracket. -/
def ofPiece? (piece : List Char) : Option Tag :=
  match piece.splitOn '>' with
  | [body, after] => some { body, after }
  | _ => none

def name (tag : Tag) : String := String.ofList (tag.body.span (· != ' ')).1

/-- Parts two by two: what stands before a double quote, and a value up to the next one. -/
def pairs : List (List Char) → List (List Char × List Char)
  | key :: value :: rest => (key, value) :: pairs rest
  | _ => []

def attributes (tag : Tag) : List (List Char × List Char) :=
  pairs ((tag.body.span (· != ' ')).2.splitOn '"')

/-- What an attribute is written as before the double quote. -/
def keyChars (key : String) : List Char := ' ' :: key.toList ++ ['=']

/-- The value of an attribute, with its entities read back. -/
def value? (tag : Tag) (key : String) : Option String :=
  (tag.attributes.lookup (keyChars key)).map fun value => unescape (String.ofList value)

/-- The value of an attribute as it is written. -/
def written? (tag : Tag) (key : String) : Option String :=
  (tag.attributes.lookup (keyChars key)).map String.ofList

end Tag

/-- The tags of a document, which has to begin with one. -/
def readTags (document : String) : Option (List Tag) :=
  match document.toList.splitOn '<' with
  | [] :: pieces => pieces.mapM Tag.ofPiece?
  | _ => none

/-- The value that an attribute has in the first tag of a name. -/
def valueIn? (tags : List Tag) (name key : String) : Option String :=
  (tags.find? (·.name == name)).bind (·.value? key)

/-- The value that an attribute has in the first tag of a name, as it is written there. -/
def writtenIn? (tags : List Tag) (name key : String) : Option String :=
  (tags.find? (·.name == name)).bind (·.written? key)

/-- The text between an opening tag and a closing one that follows it, with its entities read
back. -/
def textBetween? (opening closing : String) : List Tag → Option String
  | first :: second :: rest =>
    if first.name = opening ∧ second.name = closing then some (unescape (String.ofList first.after))
    else textBetween? opening closing (second :: rest)
  | _ => none

namespace Tag

/-- Whether a character stands nowhere in a tag or in the text after it. -/
def Lacks (c : Char) (tag : Tag) : Prop := c ∉ tag.body ∧ c ∉ tag.after

theorem ofPiece?_eq {tag : Tag} (closed : tag.Lacks '>') :
    ofPiece? (tag.body ++ '>' :: tag.after) = some tag := by
  have cut : (tag.body ++ '>' :: tag.after).splitOn '>' = [tag.body, tag.after] := by
    rw [List.splitOn_append_cons_self_of_not_mem closed.1, List.splitOn_eq_singleton closed.2]
  rw [ofPiece?, cut]

theorem splitOn_flatMap_text {tags : List Tag} (opened : ∀ tag ∈ tags, tag.Lacks '<')
    (before : List Char) (plain : '<' ∉ before) :
    (before ++ tags.flatMap text).splitOn '<' =
      before :: tags.map fun tag => tag.body ++ '>' :: tag.after := by
  induction tags generalizing before with
  | nil => rw [List.flatMap_nil, List.append_nil, List.splitOn_eq_singleton plain, List.map_nil]
  | cons tag rest ih =>
      obtain ⟨body, after⟩ := opened tag List.mem_cons_self
      have piece : '<' ∉ tag.body ++ '>' :: tag.after := by simp [body, after]
      have later := ih (fun tag member => opened tag (List.mem_cons_of_mem _ member)) _ piece
      rw [List.flatMap_cons, text, List.cons_append, List.cons_append,
        List.splitOn_append_cons_self_of_not_mem plain, later, List.map_cons]

theorem mapM_ofPiece? {tags : List Tag} (closed : ∀ tag ∈ tags, tag.Lacks '>') :
    (tags.map fun tag => tag.body ++ '>' :: tag.after).mapM ofPiece? = some tags := by
  induction tags with
  | nil => rfl
  | cons tag rest ih =>
      have first := ofPiece?_eq (closed tag List.mem_cons_self)
      have later := ih fun tag member => closed tag (List.mem_cons_of_mem _ member)
      rw [List.map_cons, List.mapM_cons, first, later]
      rfl

theorem eq_of_ofPiece? {piece : List Char} {tag : Tag} (read : ofPiece? piece = some tag) :
    piece = tag.body ++ '>' :: tag.after ∧ tag.Lacks '>' := by
  have whole : List.intercalate ['>'] (piece.splitOn '>') = piece := List.intercalate_splitOn '>'
  have parts : ∀ part ∈ piece.splitOn '>', '>' ∉ part := not_mem_of_mem_splitOn
  unfold ofPiece? at read
  split at read
  case h_1 body after cut =>
    cases read
    rw [cut] at whole parts
    refine ⟨?_, parts body (by simp), parts after (by simp)⟩
    simpa [List.intercalate_cons_cons] using whole.symm
  case h_2 => cases read

theorem eq_of_mapM_ofPiece? {pieces : List (List Char)} {tags : List Tag}
    (read : pieces.mapM ofPiece? = some tags) :
    pieces = tags.map (fun tag => tag.body ++ '>' :: tag.after) ∧ ∀ tag ∈ tags, tag.Lacks '>' := by
  induction pieces generalizing tags with
  | nil =>
      cases read
      simp
  | cons piece pieces ih =>
      simp only [List.mapM_cons, Option.bind_eq_bind, Option.bind_eq_some_iff, Option.pure_def,
        Option.some.injEq] at read
      obtain ⟨tag, first, rest, later, rfl⟩ := read
      obtain ⟨spelt, closed⟩ := eq_of_ofPiece? first
      obtain ⟨others, allClosed⟩ := ih later
      refine ⟨by rw [List.map_cons, spelt, others], ?_⟩
      intro other member
      rcases List.mem_cons.mp member with rfl | inside
      · exact closed
      · exact allClosed other inside

theorem intercalate_pieces (before : List Char) (tags : List Tag) :
    List.intercalate ['<'] (before :: tags.map fun tag => tag.body ++ '>' :: tag.after) =
      before ++ tags.flatMap text := by
  induction tags generalizing before with
  | nil => simp
  | cons tag rest ih =>
      rw [List.map_cons, List.intercalate_cons_cons, ih]
      simp [text]

end Tag

/-- The reader finds exactly the tags that a document is written as, with no bracket inside of
them. -/
theorem readTags_eq_some_iff {document : String} {tags : List Tag} :
    readTags document = some tags ↔
      document.toList = tags.flatMap Tag.text ∧
        (∀ tag ∈ tags, tag.Lacks '<') ∧ ∀ tag ∈ tags, tag.Lacks '>' := by
  constructor
  · intro read
    have whole : List.intercalate ['<'] (document.toList.splitOn '<') = document.toList :=
      List.intercalate_splitOn '<'
    have parts : ∀ part ∈ document.toList.splitOn '<', '<' ∉ part := not_mem_of_mem_splitOn
    unfold readTags at read
    split at read
    case h_1 pieces cut =>
      obtain ⟨spelt, closed⟩ := Tag.eq_of_mapM_ofPiece? read
      rw [cut, spelt] at whole parts
      rw [Tag.intercalate_pieces, List.nil_append] at whole
      refine ⟨whole.symm, ?_, closed⟩
      intro tag member
      have plain := parts (tag.body ++ '>' :: tag.after)
        (List.mem_cons_of_mem _ (List.mem_map.mpr ⟨tag, member, rfl⟩))
      simp only [List.mem_append, List.mem_cons, not_or] at plain
      exact ⟨plain.1, plain.2.2⟩
    case h_2 => cases read
  · rintro ⟨written, opened, closed⟩
    have cut := Tag.splitOn_flatMap_text opened [] List.not_mem_nil
    rw [List.nil_append, ← written] at cut
    rw [readTags, cut]
    exact Tag.mapM_ofPiece? closed

theorem Tag.count_text {c : Char} (bracket : c = '<' ∨ c = '>') {tag : Tag} (lacks : tag.Lacks c) :
    tag.text.count c = 1 := by
  have body := List.count_eq_zero.mpr lacks.1
  have after := List.count_eq_zero.mpr lacks.2
  rcases bracket with rfl | rfl <;> simp [Tag.text, body, after]

/-- A document that can be read has as many brackets of either kind as tags. -/
theorem count_of_readTags {document : String} {tags : List Tag}
    (read : readTags document = some tags) {c : Char} (bracket : c = '<' ∨ c = '>') :
    document.toList.count c = tags.length := by
  obtain ⟨written, opened, closed⟩ := readTags_eq_some_iff.mp read
  have lacks : ∀ tag ∈ tags, tag.Lacks c := by
    rcases bracket with rfl | rfl
    · exact opened
    · exact closed
  rw [written]
  -- What was read is not true of the later tags alone, so the induction goes without it.
  clear read written opened closed
  induction tags with
  | nil => rfl
  | cons tag rest ih =>
      have first := Tag.count_text bracket (lacks tag List.mem_cons_self)
      have later := ih fun other member => lacks other (List.mem_cons_of_mem _ member)
      rw [List.flatMap_cons, List.count_append, first, later, List.length_cons, Nat.add_comm]

theorem textBetween?_cons_of_ne {opening : String} {tag : Tag} (other : tag.name ≠ opening)
    (closing : String) (rest : List Tag) :
    textBetween? opening closing (tag :: rest) = textBetween? opening closing rest := by
  cases rest with
  | nil => rfl
  | cons next rest => rw [textBetween?, if_neg fun named => other named.1]

theorem textBetween?_append_of_ne {opening : String} {before : List Tag}
    (others : ∀ tag ∈ before, tag.name ≠ opening) (closing : String) (rest : List Tag) :
    textBetween? opening closing (before ++ rest) = textBetween? opening closing rest := by
  induction before with
  | nil => rfl
  | cons tag before ih =>
      rw [List.cons_append, textBetween?_cons_of_ne (others tag List.mem_cons_self)]
      exact ih fun tag member => others tag (List.mem_cons_of_mem _ member)

/-- An attribute and its value. -/
structure Assignment where
  key : String
  value : String

namespace Tag

/-- A tag with attributes; `closing` stands before its last bracket. -/
def ofAssignments (name : String) (assignments : List Assignment) (closing after : String) : Tag :=
  { body := name.toList ++
      (assignments.flatMap fun entry => (assigned entry.key entry.value).toList) ++ closing.toList
    after := after.toList }

theorem toList_assigned (key value : String) :
    (assigned key value).toList = keyChars key ++ '"' :: value.toList ++ ['"'] := by
  simp [assigned, keyChars]

variable {name closing : String} {assignments : List Assignment}

theorem lacks_ofAssignments {c : Char} (separator : c ∉ " =\"".toList) (inName : c ∉ name.toList)
    (inKeys : ∀ entry ∈ assignments, c ∉ entry.key.toList)
    (inValues : ∀ entry ∈ assignments, c ∉ entry.value.toList) (inClosing : c ∉ closing.toList)
    {after : String} (inAfter : c ∉ after.toList) :
    (ofAssignments name assignments closing after).Lacks c := by
  refine ⟨?_, inAfter⟩
  simp only [ofAssignments, List.mem_append, List.mem_flatMap, not_or, not_exists, not_and]
  refine ⟨⟨inName, ?_⟩, inClosing⟩
  intro entry member inside
  simp only [toList_assigned, keyChars, List.mem_append, List.mem_cons, List.not_mem_nil,
    or_false] at inside
  simp only [String.reduceToList, List.mem_cons, List.not_mem_nil, or_false, not_or] at separator
  have key := inKeys entry member
  have value := inValues entry member
  tauto

/-- The body of a tag is its name, and what follows begins with a blank if there is any. -/
theorem body_span (tight : ' ' ∉ name.toList) (ended : assignments = [] → closing = "")
    (after : String) :
    (ofAssignments name assignments closing after).body.span (· != ' ') =
      (name.toList,
        (assignments.flatMap fun entry => (assigned entry.key entry.value).toList) ++
          closing.toList) := by
  have kept := bne_of_not_mem tight
  rw [List.span_eq_takeWhile_dropWhile]
  cases assignments with
  | nil =>
      simp [ofAssignments, ended rfl, List.takeWhile_eq_self_iff.mpr kept,
        List.dropWhile_eq_nil_iff.mpr kept]
  | cons entry rest =>
      simp [ofAssignments, toList_assigned, keyChars, List.takeWhile_append_of_pos kept,
        List.dropWhile_append_of_pos kept]

theorem name_ofAssignments (tight : ' ' ∉ name.toList) (ended : assignments = [] → closing = "")
    (after : String) : (ofAssignments name assignments closing after).name = name := by
  rw [Tag.name, body_span tight ended, String.ofList_toList]

/-- No double quote in the key, the value or the rest: cutting there takes an attribute apart. -/
theorem splitOn_assigned {key : String} (plainKey : '"' ∉ key.toList) {value : List Char}
    (plainValue : '"' ∉ value) (rest : List Char) :
    (keyChars key ++ '"' :: value ++ '"' :: rest).splitOn '"' =
      keyChars key :: value :: rest.splitOn '"' := by
  have plain : '"' ∉ keyChars key := by simp [keyChars, plainKey]
  rw [List.append_assoc, List.cons_append, List.splitOn_append_cons_self_of_not_mem plain,
    List.splitOn_append_cons_self_of_not_mem plainValue]

theorem attributes_ofAssignments (tight : ' ' ∉ name.toList)
    (ended : assignments = [] → closing = "") (plainClosing : '"' ∉ closing.toList)
    (plainKeys : ∀ entry ∈ assignments, '"' ∉ entry.key.toList)
    (plainValues : ∀ entry ∈ assignments, '"' ∉ entry.value.toList) (after : String) :
    (ofAssignments name assignments closing after).attributes =
      assignments.map fun entry => (keyChars entry.key, entry.value.toList) := by
  rw [attributes, body_span tight ended]
  clear ended
  induction assignments with
  | nil => simp [List.splitOn_eq_singleton plainClosing, pairs]
  | cons entry rest ih =>
      have later := ih (fun other member => plainKeys other (List.mem_cons_of_mem _ member))
        (fun other member => plainValues other (List.mem_cons_of_mem _ member))
      have cut := splitOn_assigned (plainKeys entry List.mem_cons_self)
        (plainValues entry List.mem_cons_self)
        ((rest.flatMap fun entry => (assigned entry.key entry.value).toList) ++ closing.toList)
      simp only [List.flatMap_cons, toList_assigned, List.append_assoc, List.cons_append,
        List.nil_append, List.map_cons] at later cut ⊢
      rw [cut, pairs, later]

theorem keyChars_injective : Function.Injective keyChars := by
  intro left right same
  simp only [keyChars, List.cons_append, List.cons.injEq, true_and, List.append_left_inj] at same
  exact String.toList_inj.mp same

theorem lookup_keyChars (assignments : List Assignment) (key : String) :
    (assignments.map fun entry => (keyChars entry.key, entry.value.toList)).lookup (keyChars key) =
      (assignments.find? (·.key = key)).map fun entry => entry.value.toList := by
  induction assignments with
  | nil => rfl
  | cons entry rest ih =>
      by_cases same : entry.key = key
      · simp [same]
      · have apart : (keyChars key == keyChars entry.key) = false :=
          beq_false_of_ne fun equal => same (keyChars_injective equal).symm
        simp [List.lookup_cons, apart, same, ih]

theorem value?_ofAssignments (tight : ' ' ∉ name.toList) (ended : assignments = [] → closing = "")
    (plainClosing : '"' ∉ closing.toList)
    (plainKeys : ∀ entry ∈ assignments, '"' ∉ entry.key.toList)
    (plainValues : ∀ entry ∈ assignments, '"' ∉ entry.value.toList) (after key : String) :
    (ofAssignments name assignments closing after).value? key =
      (assignments.find? (·.key = key)).map fun entry => unescape entry.value := by
  rw [value?, attributes_ofAssignments tight ended plainClosing plainKeys plainValues,
    lookup_keyChars, Option.map_map]
  congr 1
  funext entry
  rw [Function.comp_apply, String.ofList_toList]

theorem written?_ofAssignments (tight : ' ' ∉ name.toList) (ended : assignments = [] → closing = "")
    (plainClosing : '"' ∉ closing.toList)
    (plainKeys : ∀ entry ∈ assignments, '"' ∉ entry.key.toList)
    (plainValues : ∀ entry ∈ assignments, '"' ∉ entry.value.toList) (after key : String) :
    (ofAssignments name assignments closing after).written? key =
      (assignments.find? (·.key = key)).map Assignment.value := by
  rw [written?, attributes_ofAssignments tight ended plainClosing plainKeys plainValues,
    lookup_keyChars, Option.map_map]
  congr 1
  funext entry
  rw [Function.comp_apply, String.ofList_toList]

theorem splitOn_value (value rest : List Char) :
    ∃ parts, (value ++ '"' :: rest).splitOn '"' = value.takeWhile (· != '"') :: parts := by
  by_cases quoted : '"' ∈ value
  · obtain ⟨first, more, rfl, plain⟩ := List.eq_append_cons_of_mem quoted
    refine ⟨(more ++ '"' :: rest).splitOn '"', ?_⟩
    rw [List.append_assoc, List.cons_append, List.splitOn_append_cons_self_of_not_mem plain]
    simp [List.takeWhile_append_of_pos (bne_of_not_mem plain)]
  · refine ⟨rest.splitOn '"', ?_⟩
    rw [List.splitOn_append_cons_self_of_not_mem quoted,
      List.takeWhile_eq_self_iff.mpr (bne_of_not_mem quoted)]

/-- The first attribute is read even if there are double quotes in its value: up to the first of
them. -/
theorem value?_first (tight : ' ' ∉ name.toList) {key : String} (plain : '"' ∉ key.toList)
    (value : String) (rest : List Assignment) (closing after : String) :
    (ofAssignments name (⟨key, value⟩ :: rest) closing after).value? key =
      some (unescape (String.ofList (value.toList.takeWhile (· != '"')))) := by
  have plainKey : '"' ∉ keyChars key := by simp [keyChars, plain]
  rw [value?, attributes, body_span tight (fun empty => by cases empty), List.flatMap_cons]
  generalize (rest.flatMap fun entry => (assigned entry.key entry.value).toList) = others
  obtain ⟨parts, cut⟩ := splitOn_value value.toList (others ++ closing.toList)
  simp only [toList_assigned, List.append_assoc, List.cons_append, List.nil_append,
    List.splitOn_append_cons_self_of_not_mem plainKey, cut, pairs, List.lookup_cons_self,
    Option.map_some]

end Tag

end Frond.Svg
