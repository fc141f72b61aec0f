import Frond.Cli.Arguments
import Frond.Proofs.Text.Cutting

/-!
How a command line is spelt. A word of two dashes names one flag or one parameter, and letters
after a single dash may name more of them; the value of a parameter is joined to its name or is the
next word. A word that is understood falls into just the pieces that it spells.
-/

namespace Frond.Cli

/-- What is given on a command line: a flag, or a parameter with its value. -/
inductive Given where
  | flag (flag : Flag)
  | parameter (parameter : Parameter) (text : String)

namespace Given

def name : Given → Name
  | flag f => .flag f
  | parameter p _ => .parameter p

def piece : Given → Piece
  | flag f => .flag f
  | parameter p text => .parameter p (some text)

end Given

/-- Letters that are flags, and a parameter after them or none. Its value is the rest, unless there
is none left and it is awaited. -/
inductive Letters : List Char → List Given → Option Parameter → Prop
  | none : Letters [] [] none
  | flag {f : Flag} {letter : Char} {rest : List Char} {given : List Given}
      {awaited : Option Parameter} (named : f.label.letter = some letter)
      (later : Letters rest given awaited) : Letters (letter :: rest) (.flag f :: given) awaited
  | awaiting {p : Parameter} {letter : Char} (named : p.label.letter = some letter) :
      Letters [letter] [] (some p)
  | joined {p : Parameter} {letter : Char} {value : List Char}
      (named : p.label.letter = some letter) (filled : value ≠ [])
      (plain : value.head? ≠ some '=') :
      Letters (letter :: value) [.parameter p (String.ofList value)] none
  | equal {p : Parameter} {letter : Char} {value : List Char}
      (named : p.label.letter = some letter) :
      Letters (letter :: '=' :: value) [.parameter p (String.ofList value)] none

/-- A word with a dash in front gives something, and may await the value of a parameter. -/
inductive Dashed : List Char → List Given → Option Parameter → Prop
  | flag (f : Flag) : Dashed ('-' :: '-' :: f.label.word.toList) [.flag f] none
  | awaiting (p : Parameter) : Dashed ('-' :: '-' :: p.label.word.toList) [] (some p)
  | equal (p : Parameter) (value : List Char) :
      Dashed ('-' :: '-' :: (p.label.word.toList ++ '=' :: value))
        [.parameter p (String.ofList value)] none
  | letters {letters : List Char} {given : List Given} {awaited : Option Parameter}
      (filled : letters ≠ []) (spelt : Letters letters given awaited) :
      Dashed ('-' :: letters) given awaited

/-- A word that may be a value: it has no dash in front, or is a dash alone. -/
def Bare (word : String) : Prop := word.toList.head? = some '-' → word.toList = ['-']

/-- Words spell what they give, in order. Where the value of a parameter is awaited it comes first.
Two dashes alone may end them. -/
inductive Spelt : Option Parameter → List String → List Given → Prop
  | none : Spelt none [] []
  | ended : Spelt none ["--"] []
  | dashed {word : String} {words : List String} {given later : List Given}
      {awaited : Option Parameter} (here : Dashed word.toList given awaited)
      (rest : Spelt awaited words later) : Spelt none (word :: words) (given ++ later)
  | value {p : Parameter} {word : String} {words : List String} {later : List Given}
      (bare : Bare word) (rest : Spelt none words later) :
      Spelt (some p) (word :: words) (.parameter p word :: later)

namespace Name

theorem ofLetter?_eq_some_iff {letter : Char} {name : Name} :
    ofLetter? letter = some name ↔ name.label.letter = some letter := by
  constructor
  · intro found
    simpa using List.find?_some found
  · intro named
    rcases name with p | f
    · cases p <;> cases named <;> rfl
    · cases f <;> cases named <;> rfl

theorem ofLetter?_parameter {p : Parameter} {letter : Char}
    (named : p.label.letter = some letter) : ofLetter? letter = some (.parameter p) :=
  ofLetter?_eq_some_iff.mpr named

theorem ofWord?_eq_some_iff {word : String} {name : Name} :
    ofWord? word = some name ↔ name.label.word = word := by
  constructor
  · intro found
    simpa using List.find?_some found
  · rintro rfl
    rcases name with p | f
    · cases p <;> rfl
    · cases f <;> rfl

theorem not_mem_word (name : Name) : '=' ∉ name.label.word.toList := by
  rcases name with p | f
  · cases p <;> decide
  · cases f <;> decide

theorem letter_ne_dash (name : Name) {letter : Char} (named : name.label.letter = some letter) :
    letter ≠ '-' := by
  rintro rfl
  rcases name with p | f
  · cases p <;> cases named
  · cases f <;> cases named

end Name

namespace Piece

/-- A piece is not understood. -/
def Refused (piece : Piece) : Prop :=
  (∃ shown, piece = .unknown shown) ∨ ∃ flag value, piece = .excess flag value

/-- The pieces of a word that gives something and may await a value. -/
def spelling (given : List Given) (awaited : Option Parameter) : List Piece :=
  given.map Given.piece ++ awaited.toList.map (.parameter · none)

theorem ofLetters_of_letters {letters : List Char} {given : List Given} {awaited : Option Parameter}
    (spelt : Letters letters given awaited) : ofLetters letters = spelling given awaited := by
  induction spelt with
  | none => rfl
  | @flag f letter rest given awaited named later ih =>
      have found : Name.ofLetter? letter = some (.flag f) := Name.ofLetter?_eq_some_iff.mpr named
      rw [ofLetters, found]
      exact congrArg (Piece.flag f :: ·) ih
  | awaiting named =>
      rw [ofLetters, Name.ofLetter?_parameter named]
      rfl
  | joined named filled plain =>
      rw [ofLetters, Name.ofLetter?_parameter named]
      dsimp only
      split
      · exact absurd rfl filled
      · exact absurd rfl plain
      · rfl
  | equal named =>
      rw [ofLetters, Name.ofLetter?_parameter named]
      rfl

theorem starts_of_letters {letters : List Char} {given : List Given} {awaited : Option Parameter}
    (filled : letters ≠ []) (spelt : Letters letters given awaited) :
    ∃ letter rest, letters = letter :: rest ∧ letter ≠ '-' := by
  cases spelt with
  | none => exact absurd rfl filled
  | flag named later => exact ⟨_, _, rfl, (Name.flag _).letter_ne_dash named⟩
  | awaiting named => exact ⟨_, _, rfl, (Name.parameter _).letter_ne_dash named⟩
  | joined named _ _ => exact ⟨_, _, rfl, (Name.parameter _).letter_ne_dash named⟩
  | equal named => exact ⟨_, _, rfl, (Name.parameter _).letter_ne_dash named⟩

theorem letters_or_refused (letters : List Char) :
    (∃ given awaited, Letters letters given awaited) ∨
      ∃ piece ∈ ofLetters letters, piece.Refused := by
  induction letters with
  | nil => exact .inl ⟨[], none, .none⟩
  | cons letter rest ih =>
      cases found : Name.ofLetter? letter with
      | none =>
          right
          rw [ofLetters, found]
          exact ⟨_, List.mem_singleton_self _, .inl ⟨_, rfl⟩⟩
      | some name =>
          have named := Name.ofLetter?_eq_some_iff.mp found
          cases name with
          | flag f =>
              rcases ih with ⟨given, awaited, later⟩ | ⟨piece, member, refused⟩
              · exact .inl ⟨_, _, .flag named later⟩
              · right
                rw [ofLetters, found]
                exact ⟨piece, List.mem_cons_of_mem _ member, refused⟩
          | parameter p =>
              left
              cases rest with
              | nil => exact ⟨_, _, .awaiting named⟩
              | cons c value =>
                  by_cases equal : c = '='
                  · subst equal
                    exact ⟨_, _, .equal named⟩
                  · refine ⟨_, _, .joined named (List.cons_ne_nil c value) ?_⟩
                    simpa using equal

theorem ofWord_word (name : Name) :
    ofWord name.label.word.toList =
      match name with
      | .flag f => flag f
      | .parameter p => parameter p none := by
  have cut := span_bne_eq_iff.mpr ⟨(List.append_nil _).symm, name.not_mem_word, .inl rfl⟩
  rw [ofWord, cut]
  dsimp only
  rw [String.ofList_toList, Name.ofWord?_eq_some_iff.mpr rfl]
  cases name <;> rfl

theorem ofWord_equal (p : Parameter) (value : List Char) :
    ofWord (p.label.word.toList ++ '=' :: value) = parameter p (some (String.ofList value)) := by
  have absent : '=' ∉ p.label.word.toList := (Name.parameter p).not_mem_word
  have found : Name.ofWord? p.label.word = some (.parameter p) :=
    Name.ofWord?_eq_some_iff.mpr rfl
  rw [ofWord, span_bne_eq_iff.mpr ⟨rfl, absent, .inr ⟨value, rfl⟩⟩]
  dsimp only
  rw [String.ofList_toList, found]

theorem dashed_or_refused_ofWord (body : List Char) :
    (∃ given awaited, Dashed ('-' :: '-' :: body) given awaited) ∨ (ofWord body).Refused := by
  obtain ⟨word, rest, cut⟩ : ∃ word rest, body.span (· != '=') = (word, rest) := ⟨_, _, rfl⟩
  obtain ⟨rfl, -, ended⟩ := span_bne_eq_iff.mp cut
  cases found : Name.ofWord? (String.ofList word) with
  | none =>
      right
      rw [ofWord, cut]
      dsimp only
      rw [found]
      exact .inl ⟨_, rfl⟩
  | some name =>
      have named := Name.ofWord?_eq_some_iff.mp found
      obtain rfl : word = name.label.word.toList := by rw [named, String.toList_ofList]
      rcases ended with rfl | ⟨value, rfl⟩
      · left
        rw [List.append_nil]
        cases name with
        | flag f => exact ⟨_, _, .flag f⟩
        | parameter p => exact ⟨_, _, .awaiting p⟩
      · cases name with
        | parameter p => exact .inl ⟨_, _, .equal p value⟩
        | flag f =>
            right
            rw [ofWord, cut]
            dsimp only
            rw [found]
            exact .inr ⟨f, _, rfl⟩

theorem ofArgument?_of_dashed {word : String} {given : List Given} {awaited : Option Parameter}
    (spelt : Dashed word.toList given awaited) :
    ofArgument? word = some (spelling given awaited) := by
  rw [ofArgument?]
  generalize word.toList = text at spelt
  cases spelt with
  | flag f => exact congrArg (some [·]) (ofWord_word (.flag f))
  | awaiting p => exact congrArg (some [·]) (ofWord_word (.parameter p))
  | equal p value => exact congrArg (some [·]) (ofWord_equal p value)
  | letters filled spelt =>
      rw [← ofLetters_of_letters spelt]
      obtain ⟨letter, rest, rfl, plain⟩ := starts_of_letters filled spelt
      split
      case h_1 same =>
        cases same
        exact absurd rfl plain
      case h_2 same =>
        cases same
        rfl
      case h_3 other => exact absurd rfl (other letter rest)

theorem dashed_or_refused {word : String} {pieces : List Piece}
    (cut : ofArgument? word = some pieces) :
    (∃ given awaited, Dashed word.toList given awaited) ∨ ∃ piece ∈ pieces, piece.Refused := by
  rw [ofArgument?] at cut
  split at cut
  case h_1 body same =>
    cases cut
    rw [same]
    exact (dashed_or_refused_ofWord body).imp_right fun refused =>
      ⟨_, List.mem_singleton_self _, refused⟩
  case h_2 letter rest _ same =>
    cases cut
    rw [same]
    refine (letters_or_refused (letter :: rest)).imp_left ?_
    rintro ⟨given, awaited, spelt⟩
    exact ⟨given, awaited, .letters (List.cons_ne_nil letter rest) spelt⟩
  case h_3 => cases cut

theorem ne_nil_of_ofArgument? {word : String} {pieces : List Piece}
    (cut : ofArgument? word = some pieces) : pieces ≠ [] := by
  rw [ofArgument?] at cut
  split at cut
  case h_1 =>
    cases cut
    exact List.cons_ne_nil _ _
  case h_2 letter rest _ _ =>
    cases cut
    rw [ofLetters]
    split
    · exact List.cons_ne_nil _ _
    · split <;> exact List.cons_ne_nil _ _
    · exact List.cons_ne_nil _ _
  case h_3 => cases cut

theorem not_refused_of_mem {given : List Given} {awaited : Option Parameter} {piece : Piece}
    (member : piece ∈ spelling given awaited) : ¬piece.Refused := by
  rcases List.mem_append.mp member with inside | last
  · obtain ⟨g, _, rfl⟩ := List.mem_map.mp inside
    cases g <;> rintro (⟨_, ⟨⟩⟩ | ⟨_, _, ⟨⟩⟩)
  · obtain ⟨p, _, rfl⟩ := List.mem_map.mp last
    rintro (⟨_, ⟨⟩⟩ | ⟨_, _, ⟨⟩⟩)

theorem ne_dashes_of_dashed {word : String} {given : List Given} {awaited : Option Parameter}
    (spelt : Dashed word.toList given awaited) : word ≠ "--" := by
  rintro rfl
  have cut : some [Piece.unknown "--"] = some (spelling given awaited) :=
    ofArgument?_of_dashed spelt
  have member : Piece.unknown "--" ∈ spelling given awaited := by
    rw [← Option.some.inj cut]
    exact List.mem_singleton_self _
  exact not_refused_of_mem member (.inl ⟨_, rfl⟩)

theorem ofArgument?_eq_none_iff {word : String} : ofArgument? word = none ↔ Bare word := by
  rw [ofArgument?, Bare]
  split
  case h_1 body same =>
    rw [same]
    simp
  case h_2 letter rest _ same =>
    rw [same]
    simp
  case h_3 long short =>
    refine ⟨fun _ first => ?_, fun _ => rfl⟩
    generalize word.toList = text at long short first ⊢
    cases text with
    | nil => cases first
    | cons c rest =>
        obtain rfl : c = '-' := Option.some.inj first
        cases rest with
        | nil => rfl
        | cons letter rest => exact absurd rfl (short letter rest)

theorem not_bare_of_dashed {word : String} {given : List Given} {awaited : Option Parameter}
    (spelt : Dashed word.toList given awaited) : ¬Bare word := by
  rw [← ofArgument?_eq_none_iff, ofArgument?_of_dashed spelt]
  exact Option.some_ne_none _

end Piece

/-- Two dashes alone give nothing, and no word follows them. -/
theorem spelt_dashes {awaited : Option Parameter} {words : List String} {given : List Given}
    (spelt : Spelt awaited ("--" :: words) given) : awaited = none ∧ words = [] ∧ given = [] := by
  cases spelt with
  | ended => exact ⟨rfl, rfl, rfl⟩
  | dashed here rest => exact absurd rfl (Piece.ne_dashes_of_dashed here)
  | value bare rest => cases bare rfl

end Frond.Cli
