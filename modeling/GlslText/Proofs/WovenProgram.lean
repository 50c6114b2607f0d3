import GlslText.Proofs.DiscardCount
import GlslText.Proofs.Weaving

/-!
# Programs are woven

The lines of statements, of the interface and of helper functions are woven from their parts. A
block opens on one line and closes on another, so lines are followed with any woven text behind
them. A whole text is woven from the names of its program, the words of the language, and the fixed
lines and helper functions of its profile.
-/

namespace GlslText

variable {Piece : Place → String → Prop} {place : Place}

/-- The terms of a program cut variables down to their first components or not at all. -/
theorem Context.narrows_program (c : Context) : ∀ term ∈ c.program.terms, term.Narrows := by
  intro term listed
  rcases c.covers_program.origin term listed with ⟨site, -, rfl⟩ | stored
  · exact site.expr.narrows_lower c site.hint
  · rcases returnVariable?_eq_some stored with ⟨semantic, variableName, -, rfl⟩ | ⟨slot, rfl⟩
    · exact List.mem_cons_self
    · exact c.entry.result.base.narrowing_mem

/-! ## Parts of statements -/

namespace Glsl

variable {names : Renaming}

/-- A text is woven from what may be absent when it is woven from what is there. -/
theorem woven_textOf {α : Type} {text : α → String} {value : Option α}
    (each : ∀ item ∈ value.toList, Woven Piece place (text item).toList) :
    Woven Piece place (textOf text value).toList := by
  cases value with
  | none => exact .empty
  | some item => exact each item List.mem_cons_self

/-- The brackets of an array may follow any woven text. -/
theorem Brackets.woven_text {brackets : Brackets}
    (terms : ∀ term ∈ brackets.terms, term.IsWoven Piece names) {front : List Char}
    (woven : Woven Piece place front) :
    Woven Piece place (front ++ (brackets.text names).toList) := by
  have size : Woven Piece place (textOf (Term.text names) brackets.size).toList :=
    woven_textOf fun term listed => terms term listed place
  simpa [text] using woven.square size .empty

/-- An array may have blanks inside its round brackets. -/
theorem ArrayLiteral.woven_text (count : Nat) {literal : ArrayLiteral}
    (element : literal.element.Spelled Piece names)
    (terms : ∀ term ∈ literal.terms, term.IsWoven Piece names) {opening closing : String}
    (opens : opening.toList = '(' :: List.replicate count ' ')
    (closes : closing.toList = List.replicate count ' ' ++ [')']) :
    Woven Piece place (literal.text names opening closing).toList := by
  obtain ⟨sizes, values⟩ := List.forall_mem_append.1 terms
  have head := Brackets.woven_text sizes (Woven.piece (element place))
  have areMarks : ∀ ch ∈ List.replicate count ' ', isMark ch = true := fun _ listed =>
    List.eq_of_mem_replicate listed ▸ rfl
  have list : Woven Piece .enclosed (Term.textList names literal.values).toList :=
    Term.woven_textList values
  simpa [text, opens, closes] using head.round ((list.append_marks areMarks).marks areMarks) .empty

/-- An initial value is woven from its names and terms. -/
theorem Initial.woven_text {initial : Initial}
    (heads : ∀ name ∈ initial.heads, name.Spelled Piece names)
    (terms : ∀ term ∈ initial.terms, term.IsWoven Piece names) :
    Woven Piece place (initial.text names).toList := by
  cases initial with
  | value term => exact terms term List.mem_cons_self place
  | array literal =>
    exact ArrayLiteral.woven_text 1 (heads literal.element List.mem_cons_self) terms
      rfl rfl

/-- A declarator is woven from its names and terms. -/
theorem Declarator.woven_text {declarator : Declarator}
    (heads : ∀ name ∈ declarator.heads, name.Spelled Piece names)
    (terms : ∀ term ∈ declarator.terms, term.IsWoven Piece names) :
    Woven Piece place (declarator.text names).toList := by
  obtain ⟨type, name, brackets, initial⟩ := declarator
  obtain ⟨own, inInitial⟩ := List.forall_mem_append.1 heads
  obtain ⟨inBrackets, values⟩ := List.forall_mem_append.1 terms
  have named : Woven Piece place ((type.text names).toList ++ ' ' :: (name.text names).toList) :=
    .mark ' ' rfl (.piece (own type (by simp) place)) (.piece (own name (by simp) place))
  have sized : Woven Piece place ((type.text names).toList ++ ' ' :: (name.text names).toList
      ++ (textOf (Brackets.text names) brackets).toList) := by
    cases brackets with
    | none => simpa [textOf] using named
    | some brackets => exact Brackets.woven_text (by simpa using inBrackets) named
  cases initial with
  | none => simpa [text, textOf] using sized
  | some initial =>
    have value : Woven Piece place (initial.text names).toList :=
      Initial.woven_text (by simpa using inInitial) (by simpa using values)
    simpa [text, textOf] using
      Woven.mark ' ' rfl sized (.mark '=' rfl .empty (.mark ' ' rfl .empty value))

/-- A parameter is woven inside the brackets of a head, where the way it is passed is a piece. -/
theorem Parameter.woven_text (lexicon : Lexicon Piece) {parameter : Parameter}
    (heads : ∀ name ∈ parameter.declarator.heads, name.Spelled Piece names)
    (terms : ∀ term ∈ parameter.declarator.terms, term.IsWoven Piece names) :
    Woven Piece .enclosed (parameter.text names).toList := by
  obtain ⟨passing, declarator⟩ := parameter
  have declared : Woven Piece .enclosed (declarator.text names).toList :=
    Declarator.woven_text heads terms
  have passed (word : String) (listed : word ∈ ["in", "inout", "out"]) :
      Woven Piece .enclosed (word.toList ++ ' ' :: (declarator.text names).toList) :=
    .mark ' ' rfl (.piece (lexicon.passing word listed)) declared
  cases passing with
  | plain => simpa [text] using declared
  | input => simpa [text] using passed "in" (by decide)
  | inOut => simpa [text] using passed "inout" (by decide)

/-- Texts between commas are woven when each of them is. -/
theorem woven_intercalate {texts : List String}
    (each : ∀ text ∈ texts, Woven Piece place text.toList) :
    Woven Piece place (String.intercalate ", " texts).toList := by
  induction texts with
  | nil => exact .empty
  | cons first rest ih =>
    obtain ⟨woven, later⟩ := List.forall_mem_cons.1 each
    cases rest with
    | nil => simpa using woven
    | cons second rest =>
      rw [String.intercalate_cons_cons]
      simpa using Woven.mark ',' rfl woven (.mark ' ' rfl .empty (ih later))

/-- The head of a function is woven from its names and terms. -/
theorem Prototype.woven_text (lexicon : Lexicon Piece) {prototype : Prototype}
    (heads : ∀ name ∈ prototype.heads, name.Spelled Piece names)
    (terms : ∀ term ∈ prototype.terms, term.IsWoven Piece names) :
    Woven Piece place (prototype.text names).toList := by
  obtain ⟨result, name, parameters⟩ := prototype
  obtain ⟨own, inParameters⟩ := List.forall_mem_append.1 heads
  have named : Woven Piece place ((result.text names).toList ++ ' ' :: (name.text names).toList) :=
    .mark ' ' rfl (.piece (own result (by simp) place)) (.piece (own name (by simp) place))
  have list : Woven Piece .enclosed
      (String.intercalate ", " (parameters.map (Parameter.text names))).toList := by
    refine woven_intercalate fun text listed => ?_
    obtain ⟨parameter, member, rfl⟩ := List.mem_map.1 listed
    exact Parameter.woven_text lexicon
      (fun name inside => inParameters name (List.mem_flatMap.2 ⟨parameter, member, inside⟩))
      (fun term inside => terms term (List.mem_flatMap.2 ⟨parameter, member, inside⟩))
  simpa [text] using named.round list .empty

/-- The replacement of a macro is woven from its names and terms. -/
theorem Replacement.woven_text {replacement : Replacement}
    (heads : ∀ name ∈ replacement.heads, name.Spelled Piece names)
    (terms : ∀ term ∈ replacement.terms, term.IsWoven Piece names) :
    Woven Piece place (replacement.text names).toList := by
  cases replacement with
  | array literal =>
    have inner : Woven Piece .enclosed (literal.text names "(" ")").toList :=
      ArrayLiteral.woven_text 0 (heads literal.element List.mem_cons_self) terms rfl rfl
    simpa [text] using Woven.round .empty inner .empty
  | name target => exact .piece (heads target List.mem_cons_self place)

/-- An effect is woven from its terms. -/
theorem Effect.woven_text {effect : Effect}
    (terms : ∀ term ∈ effect.terms, term.IsWoven Piece names) :
    Woven Piece place (effect.text names).toList := by
  cases effect with
  | store op left right =>
    simpa [text] using Woven.operator op (terms left (by simp [Effect.terms]) place)
      (terms right (by simp [Effect.terms]) place)
  | evaluate term => exact terms term List.mem_cons_self place

/-- The head of a loop is woven from the names and terms of its three parts. -/
theorem woven_loopHead (lexicon : Lexicon Piece) {start : Option Declarator}
    {condition : Option Term} {step : Option Effect}
    (heads : ∀ name ∈ start.toList.flatMap Declarator.heads, name.Spelled Piece names)
    (starts : ∀ term ∈ start.toList.flatMap Declarator.terms, term.IsWoven Piece names)
    (tests : ∀ term ∈ condition.toList, term.IsWoven Piece names)
    (steps : ∀ term ∈ step.toList.flatMap Effect.terms, term.IsWoven Piece names) :
    Woven Piece place (loopHead names start condition step).toList := by
  have first : Woven Piece .enclosed (textOf (Declarator.text names) start).toList :=
    woven_textOf fun declarator listed => Declarator.woven_text
      (fun name inside => heads name (List.mem_flatMap.2 ⟨declarator, listed, inside⟩))
      (fun term inside => starts term (List.mem_flatMap.2 ⟨declarator, listed, inside⟩))
  have second : Woven Piece .enclosed (textOf (Term.text names) condition).toList :=
    woven_textOf fun term listed => tests term listed .enclosed
  have third : Woven Piece .enclosed (textOf (Effect.text names) step).toList :=
    woven_textOf fun effect listed => Effect.woven_text
      (fun term inside => steps term (List.mem_flatMap.2 ⟨effect, listed, inside⟩))
  have keyword : Woven Piece place ("for".toList ++ [' ']) :=
    .mark ' ' rfl (lexicon.woven_word place "for" (by decide)) .empty
  simpa [loopHead] using keyword.round
    (.mark ';' rfl first (.mark ' ' rfl .empty (.mark ';' rfl second (.mark ' ' rfl .empty third))))
    .empty

end Glsl

/-! ## Lines -/

/-- Lines that are woven with any woven text behind them. -/
def Lined (Piece : Place → String → Prop) (lines : List Line) : Prop :=
  ∀ rest, Woven Piece .outside rest →
    Woven Piece .outside ((Line.renderAll lines).toList ++ rest)

/-- The end of a line that has begun, with further lines behind it. -/
def Begun (Piece : Place → String → Prop) (text : List Char) (lines : List Line) : Prop :=
  ∀ rest, Woven Piece .outside rest →
    Woven Piece .outside (text ++ '\n' :: ((Line.renderAll lines).toList ++ rest))

/-- A line is written as blanks, its text and a line end. -/
theorem Line.toList_render (depth : Nat) (text : String) : ∃ count,
    (Line.render ⟨depth, text⟩).toList = List.replicate count ' ' ++ (text.toList ++ ['\n']) := by
  unfold render
  split
  · exact ⟨0, by simp⟩
  · exact ⟨4 * depth, by simp [indentation]⟩

/-- The text of a line stands in front of the text of the lines behind it. -/
theorem Line.renderAll_cons (line : Line) (lines : List Line) :
    renderAll (line :: lines) = line.render ++ renderAll lines := by
  simp [renderAll]

namespace Lined

/-- An empty list of lines is woven. -/
theorem nil : Lined Piece [] :=
  fun _ woven => woven

/-- Woven lines may follow each other. -/
theorem append {first second : List Line} (front : Lined Piece first) (back : Lined Piece second) :
    Lined Piece (first ++ second) := by
  intro rest woven
  rw [Line.renderAll_append, String.toList_append, List.append_assoc]
  exact front _ (back rest woven)

/-- The lines of a list of items are woven when those of each item are. -/
theorem flatMap {α : Type} {items : List α} {lines : α → List Line}
    (each : ∀ item ∈ items, Lined Piece (lines item)) : Lined Piece (items.flatMap lines) := by
  induction items with
  | nil => exact nil
  | cons item rest ih =>
    obtain ⟨first, later⟩ := List.forall_mem_cons.1 each
    rw [List.flatMap_cons]
    exact first.append (ih later)

/-- A line is indented and then begun. -/
theorem cons {depth : Nat} {text : String} {lines : List Line}
    (begun : Begun Piece text.toList lines) : Lined Piece (⟨depth, text⟩ :: lines) := by
  intro rest woven
  obtain ⟨count, rendered⟩ := Line.toList_render depth text
  rw [Line.renderAll_cons, String.toList_append, rendered]
  simpa using (begun rest woven).blanks count

end Lined

namespace Begun

/-- The rest of a line ends it, and other lines follow. -/
theorem lines {text : List Char} {lines : List Line} (woven : Woven Piece .outside text)
    (lined : Lined Piece lines) : Begun Piece text lines :=
  fun rest later => .lineEnd woven (lined rest later)

/-- A line that opens a block, the lines of the block, and the line that closes it. -/
theorem block {depth : Nat} {head tail : List Char} {closing : String} {body lines : List Line}
    (woven : Woven Piece .outside head) (inner : Lined Piece body)
    (closes : closing.toList = '\x7d' :: tail) (behind : Begun Piece tail lines) :
    Begun Piece (head ++ ['\x7b']) (body ++ ⟨depth, closing⟩ :: lines) := by
  intro rest later
  obtain ⟨count, rendered⟩ := Line.toList_render depth closing
  have indented : Woven Piece .outside
      ('\n' :: ((Line.renderAll body).toList ++ List.replicate count ' ')) := by
    refine .lineEnd .empty (inner _ ?_)
    simpa using Woven.empty.blanks count
  have whole := woven.curly indented (behind rest later)
  rw [Line.renderAll_append, Line.renderAll_cons, String.toList_append, String.toList_append,
    rendered, closes]
  simpa using whole

end Begun

/-- A woven text is a woven line. -/
theorem Lined.line {depth : Nat} {text : String} (woven : Woven Piece .outside text.toList) :
    Lined Piece [⟨depth, text⟩] :=
  .cons (.lines woven .nil)

/-- One line for each item of a list is woven when each of these texts is. -/
theorem Lined.map {α : Type} {items : List α} {text : α → String} (depth : Nat)
    (each : ∀ item ∈ items, Woven Piece .outside (text item).toList) :
    Lined Piece (items.map fun item => ⟨depth, text item⟩) := by
  rw [← List.flatMap_pure_eq_map]
  exact .flatMap fun item member => .line (each item member)

/-- A block is woven from what stands in front of its opening bracket, its inner lines and what
stands behind its closing one. -/
theorem Lined.block {depth : Nat} {opening closing : String} {head tail : List Char}
    {body lines : List Line} (opens : opening.toList = head ++ ['\x7b'])
    (woven : Woven Piece .outside head) (inner : Lined Piece body)
    (closes : closing.toList = '\x7d' :: tail) (behind : Begun Piece tail lines) :
    Lined Piece (⟨depth, opening⟩ :: (body ++ ⟨depth, closing⟩ :: lines)) := by
  refine .cons ?_
  rw [opens]
  exact .block woven inner closes behind

namespace Glsl

variable {names : Renaming}

/-- Lines that declare something are woven from the names and terms of the declarators. -/
theorem lined_declarators {depth : Nat} {declarators : List Declarator}
    (heads : ∀ name ∈ declarators.flatMap Declarator.heads, name.Spelled Piece names)
    (terms : ∀ term ∈ declarators.flatMap Declarator.terms, term.IsWoven Piece names) :
    Lined Piece (declarators.map fun declarator => ⟨depth, declarator.text names ++ ";"⟩) := by
  refine .map depth fun declarator member => ?_
  have declared : Woven Piece .outside (declarator.text names).toList := Declarator.woven_text
    (fun name inside => heads name (List.mem_flatMap.2 ⟨declarator, member, inside⟩))
    (fun term inside => terms term (List.mem_flatMap.2 ⟨declarator, member, inside⟩))
  simpa using Woven.mark ';' rfl declared .empty

/-- A structure is woven from its name and the declarators of its fields. -/
theorem lined_struct (lexicon : Lexicon Piece) {depth : Nat} {name : Name}
    {fields : List Declarator}
    (named : name.Spelled Piece names)
    (heads : ∀ name ∈ fields.flatMap Declarator.heads, name.Spelled Piece names)
    (terms : ∀ term ∈ fields.flatMap Declarator.terms, term.IsWoven Piece names) :
    Lined Piece (structLines names depth name fields) := by
  have head : Woven Piece .outside
      ("struct".toList ++ ' ' :: ((name.text names).toList ++ [' '])) :=
    lexicon.keyword "struct" (by decide) (.mark ' ' rfl (.piece (named .outside)) .empty)
  have behind : Lined Piece (if depth = 0 then [Line.blank] else []) := by
    split
    · exact .line .empty
    · exact .nil
  have ending : Woven Piece .outside [';'] := .mark ';' rfl .empty .empty
  rw [structLines, List.append_assoc, List.singleton_append]
  exact .block (by simp) head (lined_declarators heads terms) rfl (.lines ending behind)

namespace Stmt

/-- A statement ends with a semicolon. -/
theorem lined_statement {depth : Nat} {text : String} (woven : Woven Piece .outside text.toList) :
    Lined Piece [⟨depth, text ++ ";"⟩] := by
  refine .line ?_
  simpa using Woven.mark ';' rfl woven .empty

/-- A statement of one word is woven when the word is a piece. -/
theorem lined_keyword {depth : Nat} {text : String} (word : String)
    (listed : Piece .outside word) (same : text = word ++ ";") : Lined Piece [⟨depth, text⟩] := by
  rw [same]
  exact lined_statement (.piece listed)

/-- The declaration of a sampler is woven from its type and its name. -/
theorem lined_sampler (lexicon : Lexicon Piece) {depth : Nat} {name : Name} (isLow : Bool)
    (base : BaseType) (named : name.Spelled Piece names) :
    Lined Piece ((sampler isLow base name).lines names depth) := by
  have typed : Woven Piece .outside (base.spelling.toList ++ ' ' :: (name.text names).toList) :=
    .mark ' ' rfl (lexicon.woven_language .outside (.type base)) (.piece (named .outside))
  rw [lines]
  refine lined_statement ?_
  cases isLow with
  | false => simpa using lexicon.keyword "uniform" (by decide) typed
  | true =>
    simpa using lexicon.keyword "uniform" (by decide) (lexicon.keyword "lowp" (by decide) typed)

/-- The head of a conditional statement, up to its opening bracket. -/
theorem woven_branchHead (lexicon : Lexicon Piece) {condition : Term}
    (woven : condition.IsWoven Piece names) :
    Woven Piece .outside
        ("if".toList ++ ' ' :: '(' :: ((condition.text names).toList ++ [')', ' '])) :=
  lexicon.keyword "if" (by decide)
    (.round .empty (woven .enclosed) (.mark ' ' rfl .empty .empty))

mutual

/-- The lines of a statement are woven from its names, its terms and its discards. -/
theorem lined_lines (lexicon : Lexicon Piece) (depth : Nat) :
    (stmt : Stmt) → (∀ name ∈ stmt.heads, name.Spelled Piece names) →
      (∀ term ∈ stmt.terms, term.IsWoven Piece names) →
      (0 < stmt.discards → Piece .outside "discard") → Lined Piece (stmt.lines names depth)
  | declare storage declarator, heads, terms, _ => by
    have declared : Woven Piece .outside (declarator.text names).toList :=
      Declarator.woven_text heads terms
    rw [lines]
    refine lined_statement ?_
    cases storage with
    | plain => simpa [Storage.text] using declared
    | const => simpa [Storage.text] using lexicon.keyword "const" (by decide) declared
    | uniform => simpa [Storage.text] using lexicon.keyword "uniform" (by decide) declared
  | sampler isLow base name, heads, _, _ =>
    lined_sampler lexicon isLow base (heads name List.mem_cons_self)
  | define name replacement, heads, terms, _ => by
    obtain ⟨named, inReplacement⟩ := List.forall_mem_cons.1 heads
    have stands : Woven Piece .outside (replacement.text names).toList :=
      Replacement.woven_text inReplacement terms
    rw [lines]
    refine .line ?_
    simpa using Woven.mark '#' rfl .empty (lexicon.keyword "define" (by decide)
      (.mark ' ' rfl (.piece (named .outside)) stands))
  | struct name fields, heads, terms, _ => by
    obtain ⟨named, inFields⟩ := List.forall_mem_cons.1 heads
    exact lined_struct lexicon named inFields terms
  | function prototype body, heads, terms, quits => by
    obtain ⟨inHead, inBody⟩ := List.forall_mem_append.1 heads
    obtain ⟨headTerms, bodyTerms⟩ := List.forall_mem_append.1 terms
    have head : Woven Piece .outside ((prototype.text names).toList ++ [' ']) :=
      .mark ' ' rfl (Prototype.woven_text lexicon inHead headTerms) .empty
    have inner := lined_linesAll lexicon (depth + 1) body inBody bodyTerms quits
    rw [lines]
    exact .block (by simp) head inner rfl (.lines .empty (.line .empty))
  | branch condition whenTrue none, heads, terms, quits => by
    obtain ⟨test, later⟩ := List.forall_mem_cons.1 terms
    have inner := lined_linesAll lexicon (depth + 1) whenTrue heads later quits
    rw [lines]
    exact .block (by simp) (woven_branchHead lexicon test) inner rfl (.lines .empty .nil)
  | branch condition whenTrue (some whenFalse), heads, terms, quits => by
    obtain ⟨inTrue, inFalse⟩ := List.forall_mem_append.1 heads
    obtain ⟨test, later⟩ := List.forall_mem_cons.1 terms
    obtain ⟨trueTerms, falseTerms⟩ := List.forall_mem_append.1 later
    have chosen := lined_linesAll lexicon (depth + 1) whenTrue inTrue trueTerms
      fun some => quits (Nat.add_pos_left some _)
    have other := lined_linesAll lexicon (depth + 1) whenFalse inFalse falseTerms
      fun some => quits (Nat.add_pos_right _ some)
    have alternative : Woven Piece .outside (' ' :: ("else".toList ++ [' '])) :=
      .mark ' ' rfl .empty (lexicon.keyword "else" (by decide) .empty)
    rw [lines]
    exact .block (by simp) (woven_branchHead lexicon test) chosen rfl
      (.block alternative other rfl (.lines .empty .nil))
  | loop start condition step body, heads, terms, quits => by
    obtain ⟨inStart, inBody⟩ := List.forall_mem_append.1 heads
    obtain ⟨headTerms, bodyTerms⟩ := List.forall_mem_append.1 terms
    obtain ⟨firstTerms, steps⟩ := List.forall_mem_append.1 headTerms
    obtain ⟨starts, tests⟩ := List.forall_mem_append.1 firstTerms
    have head : Woven Piece .outside ((loopHead names start condition step).toList ++ [' ']) :=
      .mark ' ' rfl (woven_loopHead lexicon inStart starts tests steps) .empty
    have inner := lined_linesAll lexicon (depth + 1) body inBody bodyTerms quits
    rw [lines]
    exact .block (by simp) head inner rfl (.lines .empty .nil)
  | block body, heads, terms, quits => by
    have inner := lined_linesAll lexicon (depth + 1) body heads terms quits
    rw [lines]
    exact .block rfl .empty inner rfl (.lines .empty .nil)
  | result none, _, _, _ =>
    lined_keyword "return" (lexicon.word _ (by decide) .outside) (by simp)
  | result (some value), _, terms, _ => by
    rw [lines]
    refine lined_statement ?_
    simpa using lexicon.keyword "return" (by decide) (terms value List.mem_cons_self .outside)
  | discard, _, _, quits => lined_keyword "discard" (quits Nat.one_pos) (by simp)
  | leave, _, _, _ => lined_keyword "break" (lexicon.word _ (by decide) .outside) (by simp)
  | next, _, _, _ => lined_keyword "continue" (lexicon.word _ (by decide) .outside) (by simp)
  | effect done, _, terms, _ => lined_statement (Effect.woven_text terms)
  | faulty _, _, _, _ => .nil

/-- The lines of several statements are woven from their names and terms; the word for a discard is
needed only where there is one. -/
theorem lined_linesAll (lexicon : Lexicon Piece) (depth : Nat) :
    (stmts : List Stmt) → (∀ name ∈ headsAll stmts, name.Spelled Piece names) →
      (∀ term ∈ termsAll stmts, term.IsWoven Piece names) →
      (0 < discardsAll stmts → Piece .outside "discard") →
      Lined Piece (linesAll names depth stmts)
  | [], _, _, _ => .nil
  | stmt :: rest, heads, terms, quits => by
    obtain ⟨inStmt, inRest⟩ := List.forall_mem_append.1 heads
    obtain ⟨own, later⟩ := List.forall_mem_append.1 terms
    have first := lined_lines lexicon depth stmt inStmt own
      fun some => quits (Nat.add_pos_left some _)
    exact first.append (lined_linesAll lexicon depth rest inRest later
      fun some => quits (Nat.add_pos_right _ some))

end

end Stmt

end Glsl

/-! ## Programs -/

/-- The parts of a helper function are woven. -/
structure Overload.IsWoven (Piece : Place → String → Prop) (overload : Overload) : Prop where
  result : Piece .outside overload.result
  parameters : ∀ parameter ∈ overload.parameters, Woven Piece .enclosed parameter.toList
  body : ∀ statement ∈ overload.body, Woven Piece .outside statement.toList

/-- The definition of a helper function is woven from its parts. -/
theorem Overload.woven_text {names : Renaming} {overload : Overload}
    (parts : overload.IsWoven Piece)
    (helper : (Glsl.Name.helper overload.helper).Spelled Piece names) :
    Woven Piece .outside (overload.text names).toList := by
  have statements {body : List String}
      (each : ∀ statement ∈ body, Woven Piece .outside statement.toList) :
      Woven Piece .outside (String.join (body.map (· ++ " "))).toList := by
    induction body with
    | nil => exact .empty
    | cons statement rest ih =>
      obtain ⟨first, later⟩ := List.forall_mem_cons.1 each
      simpa using Woven.mark ' ' rfl first (ih later)
  have named : Woven Piece .outside
      (overload.result.toList ++ ' ' :: (names.helper overload.helper).toList) :=
    .mark ' ' rfl (.piece parts.result) (.piece (helper .outside))
  have list : Woven Piece .enclosed (String.intercalate ", " overload.parameters).toList :=
    Glsl.woven_intercalate parts.parameters
  have body : Woven Piece .outside (' ' :: (String.join (overload.body.map (· ++ " "))).toList) :=
    .mark ' ' rfl .empty (statements parts.body)
  simpa [text] using named.round list (.mark ' ' rfl .empty (.curly .empty body .empty))

/-! ## Helper functions -/

/-- The types of the overloads are words of the language. -/
theorem languageWord_of_mem_floatVectors {type : String} (listed : type ∈ floatVectors) :
    Glsl.LanguageWord type := by
  simp only [floatVectors, List.mem_cons, List.not_mem_nil, or_false] at listed
  rcases listed with rfl | rfl | rfl | rfl
  · exact .type (.vector (.float .full) .one)
  · exact .type (.vector (.float .full) .two)
  · exact .type (.vector (.float .full) .three)
  · exact .type (.vector (.float .full) .four)

namespace Overload

variable (lexicon : Lexicon Piece)

include lexicon

/-- A parameter with its type. -/
theorem woven_typed {type : String} (isType : Glsl.LanguageWord type) (name : String)
    (listed : name ∈ commonWords) :
    Woven Piece .enclosed (type.toList ++ ' ' :: name.toList) :=
  .mark ' ' rfl (lexicon.woven_language .enclosed isType) (lexicon.woven_word .enclosed name listed)

omit lexicon in
/-- A function applied to what stands in its brackets. -/
theorem woven_applied {function inner : List Char} (called : Woven Piece place function)
    (arguments : Woven Piece .enclosed inner) :
    Woven Piece place (function ++ '(' :: (inner ++ [')'])) :=
  called.round arguments .empty

/-- A helper function that clips is woven; it discards in a fragment only. -/
theorem clip_isWoven {profile : Profile}
    (quits : profile.isFragment = true → Piece .outside "discard") {type : String}
    (isType : Glsl.LanguageWord type) : (clip profile type).IsWoven Piece where
  result := lexicon.word "void" (by decide) .outside
  parameters := by simpa [clip] using woven_typed lexicon isType "x" (by decide)
  body := by
    have x := lexicon.woven_word .enclosed "x" (by decide)
    have zero := lexicon.woven_language .enclosed .zero
    have compared := woven_applied (lexicon.woven_word .enclosed "lessThan" (by decide))
      (.mark ',' rfl x (.mark ' ' rfl .empty
        (woven_applied (lexicon.woven_language .enclosed isType) zero)))
    unfold clip
    cases isFragment : profile.isFragment with
    | false => exact List.forall_mem_nil _
    | true =>
      have discards {test : List Char} (woven : Woven Piece .enclosed test) :
          Woven Piece .outside ("if (".toList ++ (test ++ ") discard;".toList)) := by
        have discard : Woven Piece .outside "discard".toList := .piece (quits isFragment)
        simpa using lexicon.keyword "if" (by decide)
          (.round .empty woven (.mark ' ' rfl .empty (.mark ';' rfl discard .empty)))
      have scalar := discards (.mark ' ' rfl x (.mark '<' rfl .empty (.mark ' ' rfl .empty zero)))
      have vector := discards
        (woven_applied (lexicon.woven_word .enclosed "any" (by decide)) compared)
      split
      · rename_i vertex
        cases vertex
      · split
        · simpa using scalar
        · simpa using vector

/-- A helper function that samples a texture is woven. -/
theorem sample_isWoven (profile : Profile) (helper : Helper) {samplerType function : String}
    {coordinates : String} (isType : Glsl.LanguageWord samplerType)
    (listed : function ∈ commonWords)
    (woven : Woven Piece .enclosed coordinates.toList) :
    (sample profile helper samplerType function coordinates).IsWoven Piece where
  result := lexicon.language "vec4" (.type (.vector (.float .full) .four)) .outside
  parameters := by
    have sampled := woven_typed lexicon isType "s" (by decide)
    have coordinate := woven_typed lexicon (.type (.vector (.float .full) .four)) "t" (by decide)
    have precise : Woven Piece .enclosed
        ((if profile.isMobile then "lowp " else "") ++ samplerType ++ " s").toList := by
      split
      · simpa using lexicon.keyword "lowp" (by decide) sampled
      · simpa using sampled
    simp only [sample, List.forall_mem_cons, List.not_mem_nil, false_implies, implies_true,
      and_true]
    exact ⟨precise, coordinate⟩
  body := by
    have called := woven_applied (lexicon.woven_word .outside function listed)
      (.mark ',' rfl (lexicon.woven_word .enclosed "s" (by decide)) (.mark ' ' rfl .empty woven))
    simpa [sample] using lexicon.keyword "return" (by decide) (.mark ';' rfl called .empty)

/-- A helper function for sine and cosine is woven. -/
theorem sinCos_isWoven {type : String} (isType : Glsl.LanguageWord type) :
    (sinCos type).IsWoven Piece where
  result := lexicon.word "void" (by decide) .outside
  parameters := by
    have passed (name : String) (listed : name ∈ commonWords) :
        Woven Piece .enclosed ("out".toList ++ ' ' :: (type.toList ++ ' ' :: name.toList)) :=
      .mark ' ' rfl (.piece (lexicon.passing "out" (by decide)))
      (woven_typed lexicon isType name listed)
    simpa [sinCos] using ⟨woven_typed lexicon isType "x" (by decide), passed "s" (by decide),
      passed "c" (by decide)⟩
  body := by
    have stores (name function : String) (named : name ∈ commonWords)
        (listed : function ∈ commonWords) :
        Woven Piece .outside (name.toList ++ " = ".toList ++ function.toList ++ "(x);".toList) := by
      have called := woven_applied (lexicon.woven_word .outside function listed)
        (lexicon.woven_word .enclosed "x" (by decide))
      simpa using lexicon.keyword name named
        (.mark '=' rfl .empty (.mark ' ' rfl .empty (.mark ';' rfl called .empty)))
    simpa [sinCos] using ⟨stores "s" "sin" (by decide) (by decide),
      stores "c" "cos" (by decide) (by decide)⟩

/-- A helper function that repeats a scalar is woven. -/
theorem swizzle_isWoven (helper : Helper) {scalar vector : String}
    (isScalar : Glsl.LanguageWord scalar) (isVector : Glsl.LanguageWord vector) :
    (swizzle helper scalar vector).IsWoven Piece where
  result := lexicon.language vector isVector .outside
  parameters := by simpa [swizzle] using woven_typed lexicon isScalar "x" (by decide)
  body := by
    have called := woven_applied (lexicon.woven_language .outside isVector)
      (lexicon.woven_word .enclosed "x" (by decide))
    simpa [swizzle] using lexicon.keyword "return" (by decide) (.mark ';' rfl called .empty)

/-- All helper functions that repeat scalars are woven. -/
theorem swizzles_isWoven (profile : Profile) :
    ∀ overload ∈ swizzles profile, overload.IsWoven Piece := by
  have typed (element : Element) (width : Width) :
      Glsl.LanguageWord (BaseType.spelling (.vector element width)) := .type _
  have vectors : ∀ pair ∈ [("float", "vec"), ("int", "ivec"), ("uint", "uvec")],
      Glsl.LanguageWord pair.1 ∧
        ∀ count ∈ ["2", "3", "4"], Glsl.LanguageWord (pair.2 ++ count) := by
    simp only [List.forall_mem_cons, List.not_mem_nil, false_implies, implies_true, and_true]
    exact ⟨⟨typed (.float .full) .one, typed (.float .full) .two, typed (.float .full) .three,
      typed (.float .full) .four⟩, ⟨typed .int .one, typed .int .two, typed .int .three,
      typed .int .four⟩, ⟨typed .uint .one, typed .uint .two, typed .uint .three,
      typed .uint .four⟩⟩
  intro overload listed
  obtain ⟨⟨helper, count⟩, counted, listed⟩ := List.mem_flatMap.1 listed
  obtain ⟨⟨scalar, vector⟩, paired, rfl⟩ := List.mem_map.1 listed
  have known : (scalar, vector) ∈ [("float", "vec"), ("int", "ivec"), ("uint", "uvec")] := by
    unfold scalars at paired
    split at paired
    · exact paired
    · rw [List.append_nil] at paired
      exact List.mem_append_left [("uint", "uvec")] paired
  have written : count ∈ ["2", "3", "4"] :=
    List.mem_map_of_mem (f := Prod.snd) counted
  obtain ⟨isScalar, isVector⟩ := vectors _ known
  exact swizzle_isWoven lexicon helper isScalar (isVector count written)

end Overload

/-- The helper functions that a feature calls for are woven. -/
theorem Feature.overloads_isWoven (lexicon : Lexicon Piece) {profile : Profile}
    (quits : profile.isFragment = true → Piece .outside "discard") (feature : Feature) :
    ∀ overload ∈ feature.overloads profile, overload.IsWoven Piece := by
  have selected (fields : String) (listed : fields ∈ commonWords) :
      Woven Piece .enclosed ("t".toList ++ '.' :: fields.toList) :=
    .mark '.' rfl (lexicon.woven_word .enclosed "t" (by decide))
      (lexicon.woven_word .enclosed fields listed)
  have level {coordinates : List Char} (woven : Woven Piece .enclosed coordinates) :
      Woven Piece .enclosed (coordinates ++ ", t.w".toList) := by
    simpa using Woven.mark ',' rfl woven (.mark ' ' rfl .empty (selected "w" (by decide)))
  have biased {coordinates : String} (woven : Woven Piece .enclosed coordinates.toList) :
      Woven Piece .enclosed (Overload.withBias profile coordinates).toList := by
    unfold Overload.withBias
    split
    · simpa using level woven
    · exact woven
  have either {legacy modern : String} (first : legacy ∈ commonWords)
      (second : modern ∈ commonWords) :
      (if profile.isLegacy then legacy else modern) ∈ commonWords := by
    split
    · exact first
    · exact second
  cases feature with
  | clip =>
    intro overload listed
    obtain ⟨type, member, rfl⟩ := List.mem_map.1 listed
    exact Overload.clip_isWoven lexicon quits (languageWord_of_mem_floatVectors member)
  | texBias =>
    refine List.forall_mem_singleton.2 (Overload.sample_isWoven lexicon profile _
      (.type (.sampler .plane)) (either (by decide) (by decide)) (biased ?_))
    simpa using selected "xy" (by decide)
  | volumeLod =>
    refine List.forall_mem_singleton.2 (Overload.sample_isWoven lexicon profile _
      (.type (.sampler .volume)) (either (by decide) (by decide)) ?_)
    simpa using level (selected "xyz" (by decide))
  | cubeBias =>
    refine List.forall_mem_singleton.2 (Overload.sample_isWoven lexicon profile _
      (.type (.sampler .cube)) (either (by decide) (by decide)) (biased ?_))
    simpa using selected "xyz" (by decide)
  | sinCos =>
    intro overload listed
    obtain ⟨type, member, rfl⟩ := List.mem_map.1 listed
    exact Overload.sinCos_isWoven lexicon (languageWord_of_mem_floatVectors member)
  | scalarSwizzle => exact Overload.swizzles_isWoven lexicon profile
  | texLod => exact List.forall_mem_nil _
  | texGrad => exact List.forall_mem_nil _
  | multipleTargets => exact List.forall_mem_nil _

namespace Glsl.Program

/-- What a program is written with are pieces. -/
structure Spelled (Piece : Place → String → Prop) (names : Renaming) (program : Program) :
    Prop where
  preamble : ∀ line ∈ program.preamble, Piece .outside line
  qualifier : ∀ var ∈ program.declared, Piece .outside var.qualifier.text
  precision : ∀ var ∈ program.declared, ∀ word ∈ var.precision, Piece .outside word
  /-- The words of a colour output; the variable itself has a name of its own. -/
  direction : ∀ output ∈ program.outputs, ∀ word ∈ ["layout", "inout", "out"], Piece .outside word
  color : ∀ output ∈ program.outputs,
    (Name.color .modern true output.location).Spelled Piece names
  overload : ∀ group ∈ program.helpers, ∀ overload ∈ group, overload.IsWoven Piece
  discard : 0 < Stmt.discardsAll program.globals + Stmt.discardsAll program.body →
    Piece .outside "discard"
  helper : ∀ which, (Name.helper which).Spelled Piece names
  name : ∀ name ∈ program.names, name.Spelled Piece names

variable {names : Renaming} {program : Program}

/-- An empty line may follow woven lines. -/
theorem lined_spaced {lines : List Line} (lined : Lined Piece lines) :
    Lined Piece (spaced lines) := by
  unfold spaced
  split
  · exact .nil
  · exact lined.append (.line .empty)

/-- The declaration of a colour output is woven. -/
theorem woven_output (lexicon : Lexicon Piece) (spelled : program.Spelled Piece names)
    {output : ColorOutput} (listed : output ∈ program.outputs) :
    Woven Piece .outside output.text.toList := by
  have word (text : String) (isWord : text ∈ ["layout", "inout", "out"]) :
      Woven Piece .outside text.toList :=
    .piece (spelled.direction output listed text isWord)
  have number : Woven Piece .enclosed (toString output.location).toList :=
    lexicon.woven_natural .enclosed output.location
  have location : Woven Piece .enclosed
      ("location".toList ++ ' ' :: '=' :: ' ' :: (toString output.location).toList) :=
    lexicon.keyword "location" (by decide) (.mark '=' rfl .empty (.mark ' ' rfl .empty number))
  have variableName : Woven Piece .outside ("out_FragColor" ++ toString output.location).toList :=
    .piece (spelled.color output listed .outside)
  have typed : Woven Piece .outside
      ("vec4".toList ++ ' ' :: ("out_FragColor" ++ toString output.location).toList) :=
    .mark ' ' rfl (lexicon.woven_language .outside (.type (.vector (.float .full) .four)))
      variableName
  have directed (text : String) (isWord : text ∈ ["layout", "inout", "out"]) :
      Woven Piece .outside ("layout (location = " ++ toString output.location ++ ") " ++ text
        ++ " vec4 out_FragColor" ++ toString output.location ++ ";").toList := by
    have front : Woven Piece .outside ("layout".toList ++ [' ']) :=
      .mark ' ' rfl (word "layout" (by decide)) .empty
    have back : Woven Piece .outside (text.toList ++ ' ' :: ("vec4".toList ++ ' ' ::
        (("out_FragColor" ++ toString output.location).toList ++ [';']))) := by
      simpa using Woven.mark ' ' rfl (word text isWord) (.mark ';' rfl typed .empty)
    simpa using front.round location (.mark ' ' rfl .empty back)
  unfold ColorOutput.text
  split
  · exact directed "inout" (by decide)
  · exact directed "out" (by decide)

/-- The declaration of an interface variable is woven. -/
theorem woven_variable (spelled : program.Spelled Piece names) {var : InterfaceVariable}
    (listed : var ∈ program.declared) : Woven Piece .outside (var.text names).toList := by
  have own (name : Name) (written : name ∈ [var.type, var.name]) :
      Woven Piece .outside (name.text names).toList :=
    .piece (spelled.name name
      (List.mem_append_left _ (List.mem_flatMap.2 ⟨var, listed, written⟩)) .outside)
  have typed : Woven Piece .outside
      ((var.type.text names).toList ++ ' ' :: ((var.name.text names).toList ++ [';'])) :=
    .mark ' ' rfl (own var.type (by simp)) (.mark ';' rfl (own var.name (by simp)) .empty)
  have qualified := Woven.piece (spelled.qualifier var listed)
  cases precise : var.precision with
  | none => simpa [InterfaceVariable.text, precise] using qualified.mark ' ' rfl typed
  | some word =>
    have precision := Woven.piece (spelled.precision var listed word precise)
    simpa [InterfaceVariable.text, precise] using
      qualified.mark ' ' rfl (precision.mark ' ' rfl typed)

/-- The lines of the interface are woven. -/
theorem lined_interface (lexicon : Lexicon Piece) (spelled : program.Spelled Piece names) :
    Lined Piece (program.interfaceLines names) := by
  have declared : Lined Piece (program.declared.map fun var => ⟨0, var.text names⟩) :=
    .map 0 fun var listed => woven_variable spelled listed
  have outputs : Lined Piece (program.outputs.map fun output => ⟨0, output.text⟩) :=
    .map 0 fun output listed => woven_output lexicon spelled listed
  exact lined_spaced (declared.append outputs)

/-- The definitions of the helper functions are woven. -/
theorem lined_helpers (spelled : program.Spelled Piece names) :
    Lined Piece (program.helpers.flatMap (Overload.groupLines names)) := by
  refine .flatMap fun group grouped => ?_
  have defined : Lined Piece (group.map fun overload => ⟨0, overload.text names⟩) :=
    .map 0 fun overload listed => Overload.woven_text
      (spelled.overload group grouped overload listed) (spelled.helper overload.helper)
  exact defined.append (.line .empty)

/-- The properties of `main` and the comment in front of them are woven. -/
theorem lined_properties (lexicon : Lexicon Piece)
    (heads : ∀ name ∈ program.properties.flatMap Declarator.heads, name.Spelled Piece names)
    (terms : ∀ term ∈ program.properties.flatMap Declarator.terms, term.IsWoven Piece names) :
    Lined Piece (program.propertyLines names) := by
  have heading : Woven Piece .outside ('/' :: '/' :: ' ' :: "properties".toList) :=
    .mark '/' rfl .empty (.mark '/' rfl .empty (.mark ' ' rfl .empty
      (lexicon.woven_word .outside "properties" (by decide))))
  unfold propertyLines
  split
  · exact .nil
  · exact .cons (.lines heading ((lined_declarators heads terms).append (.line .empty)))

/-- Every program is woven from what it is written with. -/
theorem woven_text (lexicon : Lexicon Piece) (spelled : program.Spelled Piece names)
    (narrows : ∀ term ∈ program.terms, term.Narrows) :
    Woven Piece .outside (program.text names).toList := by
  obtain ⟨heads, inTerms⟩ := List.forall_mem_append.1 (List.forall_mem_append.1 spelled.name).2
  have terms : ∀ term ∈ program.terms, term.IsWoven Piece names := fun term listed =>
    term.woven_text lexicon
      (fun name inside => inTerms name (List.mem_flatMap.2 ⟨term, listed, inside⟩))
      (narrows term listed)
  obtain ⟨frontHeads, bodyHeads⟩ := List.forall_mem_append.1 heads
  obtain ⟨globalHeads, propertyHeads⟩ := List.forall_mem_append.1 frontHeads
  obtain ⟨frontTerms, bodyTerms⟩ := List.forall_mem_append.1 terms
  obtain ⟨globalTerms, propertyTerms⟩ := List.forall_mem_append.1 frontTerms
  have preamble : Lined Piece (program.preamble.map fun text => ⟨0, text⟩) :=
    .map 0 fun line listed => .piece (spelled.preamble line listed)
  have globals := Stmt.lined_linesAll lexicon 0 program.globals globalHeads globalTerms
    fun some => spelled.discard (Nat.add_pos_left some _)
  have body := Stmt.lined_linesAll lexicon 1 program.body bodyHeads bodyTerms
    fun some => spelled.discard (Nat.add_pos_right _ some)
  have heading : Woven Piece .outside ("void".toList ++ ' ' :: ("main".toList ++ ['(', ')'])) :=
    lexicon.keyword "void" (by decide)
      (.round (lexicon.woven_word .outside "main" (by decide)) .empty .empty)
  have main : Lined Piece (program.mainLines names) := by
    rw [mainLines, List.append_assoc, List.append_assoc, List.cons_append, List.singleton_append]
    refine .cons (.lines heading ?_)
    rw [← List.append_assoc]
    exact .block rfl .empty ((lined_properties lexicon propertyHeads propertyTerms).append body)
      rfl (.lines .empty .nil)
  have whole : Lined Piece (program.lines names) :=
    (((preamble.append (lined_interface lexicon spelled)).append (lined_helpers spelled)).append
      globals).append main
  simpa [text] using whole [] .empty

end Glsl.Program

/-! ## Texts of a profile -/

/-- The target of a dialect with the longest preamble. -/
def Dialect.fullest : Dialect → Profile
  | es100 => ⟨.mobileA, .legacy, .fragment⟩
  | es300 => ⟨.mobileA, .modern, .fragment⟩
  | glsl120 => ⟨.desktopMac, .legacy, .fragment⟩
  | glsl130 => ⟨.desktopOther, .legacy, .fragment⟩
  | glsl330 => ⟨.desktopOther, .modern, .fragment⟩

namespace Profile

/-- Features and the stage add lines to the preamble of a dialect and take none away. -/
theorem preamble_subset (profile : Profile) (features : Features) :
    profile.preamble features ⊆ profile.dialect.fullest.preamble Feature.all := by
  have all (feature : Feature) : Feature.all.contains feature = true := by
    simpa using feature.mem_all
  have mobile : profile.dialect.fullest.isMobile = profile.isMobile := by
    obtain ⟨platform, requested, stage⟩ := profile
    cases platform <;> cases requested <;> rfl
  have same : profile.dialect.fullest.dialect = profile.dialect := by
    cases profile.dialect <;> rfl
  have lines :
      profile.dialectLines features ⊆ profile.dialect.fullest.dialectLines Feature.all := by
    intro line listed
    unfold dialectLines at listed ⊢
    simp only [all, same, Bool.and_true, Bool.or_true] at listed ⊢
    cases dialect : profile.dialect <;>
      simp only [dialect, linesIf, Dialect.fullest, isFragment, List.mem_append,
        List.mem_ite_nil_right, Bool.and_eq_true, beq_self_eq_true, if_true] at listed ⊢ <;>
      grind
  unfold preamble
  rw [mobile, same]
  intro line listed
  simp only [List.mem_cons, List.mem_append] at listed ⊢
  rcases listed with directive | (inDialect | mobile) | closing
  · exact .inl directive
  · exact .inr (.inl (.inl (lines inDialect)))
  · exact .inr (.inl (.inr mobile))
  · exact .inr (.inr closing)

end Profile

/-- The pieces include what is written for a profile whatever the shader. -/
structure Profile.Phrases (Piece : Place → String → Prop) (profile : Profile) : Prop where
  preamble : ∀ line ∈ profile.dialect.fullest.preamble Feature.all, Piece .outside line
  qualifier : ∀ qualifier ∈ [profile.inputQualifier, profile.outputQualifier],
    Piece .outside qualifier.text
  /-- Colour outputs are declared in the modern generation only. -/
  direction : profile.isLegacy = false → ∀ word ∈ ["layout", "inout", "out"], Piece .outside word
  discard : profile.isFragment = true → Piece .outside "discard"

/-- A variable of the interface has the qualifier of one direction and perhaps a precision. -/
theorem Field.variable_words {profile : Profile} {field : Field} {var : InterfaceVariable}
    (declared : field.inputVariable? profile = some var ∨
      field.outputVariable? profile = some var) :
    var.qualifier ∈ [profile.inputQualifier, profile.outputQualifier] ∧
      ∀ word ∈ var.precision, word ∈ ["lowp", "mediump"] := by
  have precise : ∀ word ∈ field.precision? profile, word ∈ ["lowp", "mediump"] := by
    intro word chosen
    unfold precision? at chosen
    split at chosen
    · split at chosen
      · obtain rfl := Option.some.inj chosen
        exact List.mem_cons_self
      · split at chosen
        · obtain rfl := Option.some.inj chosen
          exact List.mem_cons_of_mem _ List.mem_cons_self
        · cases chosen
    · cases chosen
  rcases declared with taken | returned
  · unfold inputVariable? at taken
    split at taken
    · obtain rfl := Option.some.inj taken
      exact ⟨List.mem_cons_self, by simp⟩
    · obtain rfl := Option.some.inj taken
      exact ⟨List.mem_cons_self, precise⟩
    · cases taken
  · unfold outputVariable? at returned
    split at returned
    · obtain rfl := Option.some.inj returned
      exact ⟨List.mem_cons_of_mem _ List.mem_cons_self, precise⟩
    · cases returned

namespace Context

variable {names : Renaming} (c : Context)

/-- The program of an entry is spelled by the phrases of its profile and by its names. -/
theorem spelled_program (lexicon : Lexicon Piece) (phrases : c.profile.Phrases Piece)
    (color : ∀ slot, (Glsl.Name.color .modern true slot).Spelled Piece names)
    (helper : ∀ which, (Glsl.Name.helper which).Spelled Piece names)
    (name : ∀ name ∈ c.program.names, name.Spelled Piece names) :
    c.program.Spelled Piece names where
  preamble line listed := phrases.preamble line (c.profile.preamble_subset _ listed)
  qualifier var listed := by
    obtain ⟨struct, -, field, -, made⟩ := Interface.mem_declared listed
    exact phrases.qualifier _ (Field.variable_words made).1
  precision var listed word precise := by
    obtain ⟨struct, -, field, -, made⟩ := Interface.mem_declared listed
    have precisions : ∀ word ∈ ["lowp", "mediump"], word ∈ commonWords := by decide
    have named := (Field.variable_words made).2 word precise
    exact lexicon.word word (precisions word named) .outside
  direction output listed := by
    refine phrases.direction ?_
    simp only [program, List.mem_ite_nil_right, declaresOutputs, Bool.and_eq_true,
      Bool.not_eq_true'] at listed
    exact listed.1.2
  color output _ := color output.location
  overload group grouped := by
    obtain ⟨feature, -, rfl⟩ := List.mem_map.1 grouped
    exact feature.overloads_isWoven lexicon phrases.discard
  discard some := by
    refine phrases.discard ?_
    by_contra vertex
    simp [program, Statement.discardsAll_lowerAll, vertex] at some
  helper := helper
  name := name

end Context

/-- The text of an entry is woven from the vocabulary of its shader and the phrases of its
profile. -/
theorem Vocabulary.woven_program {Word : String → Prop} (vocabulary : Vocabulary Word Piece)
    {shader : Shader} {profile : Profile} {entryName : String} {entry : Function}
    {names : Renaming} (phrases : profile.Phrases Piece)
    (found : shader.function? entryName = some entry)
    (chosen : Renaming.ofTokens shader.tokens = .ok names)
    (words : ∀ word ∈ shader.tokens, Word word) :
    Woven Piece .outside ((Context.ofEntry shader profile entry).program.text names).toList := by
  let c := Context.ofEntry shader profile entry
  have spelled : c.program.Spelled Piece names :=
    c.spelled_program vocabulary.toLexicon phrases (vocabulary.color .modern true)
      (vocabulary.helper chosen)
      fun name written => vocabulary.name chosen words (Context.names_accounted found name written)
  exact Glsl.Program.woven_text vocabulary.toLexicon spelled c.narrows_program

end GlslText
