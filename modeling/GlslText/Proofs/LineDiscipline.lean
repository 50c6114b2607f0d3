import GlslText.Proofs.LineWriting
import GlslText.Proofs.SamplerParameters
import GlslText.Proofs.WovenProgram

/-!
# Lines of a text

Where the strings of a shader hold no line end, no expression does, and every line that a statement
writes is one line of the text. It is indented by the depth of the statement or deeper, unless it is
empty. So a macro stands on a line of its own.
-/

namespace GlslText

/-! ## Texts without line ends -/

/-- A text that holds no line end. -/
def SingleLine (text : String) : Prop :=
  '\n' ∉ text.toList

instance (text : String) : Decidable (SingleLine text) :=
  inferInstanceAs (Decidable ('\n' ∉ text.toList))

/-- The pieces without line ends, at any place. -/
abbrev SinglePiece (_ : Place) (piece : String) : Prop :=
  SingleLine piece

namespace SingleLine

/-- Two texts without line ends are joined to one without. -/
theorem append {front back : String} (first : SingleLine front) (second : SingleLine back) :
    SingleLine (front ++ back) := by
  unfold SingleLine
  rw [String.toList_append]
  exact List.not_mem_append first second

/-- Digits are no line ends. -/
theorem of_digits {word : String} (digits : AllChars Char.isDigit word) : SingleLine word := by
  intro ended
  have digit := digits '\n' ended
  revert digit
  decide

/-- A number in decimal digits holds no line end. -/
theorem of_number (n : Nat) : SingleLine (toString n) :=
  of_digits (allDigits_toString n)

/-- Inside round brackets nothing but a piece could hold a line end. -/
theorem of_woven {text : String} (woven : Woven SinglePiece .enclosed text.toList) :
    SingleLine text := by
  unfold SingleLine
  generalize text.toList = chars at woven ⊢
  -- The place stays what it is but in round brackets, where it is the enclosed one again.
  generalize isEnclosed : Place.enclosed = place at woven
  induction woven with
  | empty => exact List.not_mem_nil
  | piece single => exact single
  | mark ch mark _ _ first second =>
    have other : '\n' ≠ ch := by
      rintro rfl
      revert mark
      decide
    simp [first isEnclosed, second isEnclosed, other]
  | round _ _ _ front between back =>
    simp [front isEnclosed, between rfl, back isEnclosed]
  | square _ _ _ front between back =>
    simp [front isEnclosed, between isEnclosed, back isEnclosed]
  | curly _ _ _ front between back =>
    simp [front isEnclosed, between isEnclosed, back isEnclosed]
  | lineEnd => cases isEnclosed

end SingleLine

/-- No word of the language holds a line end. -/
theorem Glsl.LanguageWord.singleLine {word : String} (fixed : LanguageWord word) :
    SingleLine word := by
  refine fixed.induct (fun base => ?_) (by decide +kernel) (by decide) (by decide)
  unfold BaseType.spelling
  split <;> decide

/-- Whatever a text is woven from holds no line end, given words without one. -/
theorem singleVocabulary : Vocabulary SingleLine SinglePiece where
  word text listed _ := by
    have single : ∀ text ∈ commonWords, SingleLine text := by decide +kernel
    exact single text listed
  language _ fixed _ := fixed.singleLine
  numeral _ digits _ := .of_digits digits
  passing text listed := by
    have single : ∀ text ∈ ["in", "inout", "out"], SingleLine text := by decide
    exact single text listed
  copied _ single _ := single
  interface text single start listed _ := by
    have starts : ∀ start ∈ ["attr_", "var_"], SingleLine start := by decide
    exact (starts start listed).append single
  aliases base needed n _ := by
    have bases : ∀ base ∈ aliasBases, SingleLine base := by decide +kernel
    exact (bases base needed).append (.of_number n)
  texture stage unit _ := by
    have front : SingleLine (stage.word ++ "Texture") := by cases stage <;> decide
    exact front.append (.of_number unit)
  color generation several slot _ := by
    cases generation <;> cases several
    · exact (by decide : SingleLine "gl_FragColor")
    · exact ((by decide : SingleLine "gl_FragData[").append (.of_number slot)).append (by decide)
    · exact (by decide : SingleLine "out_FragColor0")
    · exact (by decide : SingleLine "out_FragColor").append (.of_number slot)

/-! ## Lines of statements -/

namespace Line

/-- A line that holds no line end of its own and, unless it is empty, stands at a depth or
deeper. -/
structure Fits (depth : Nat) (line : Line) : Prop where
  single : SingleLine line.text
  deep : line.text ≠ "" → depth ≤ line.depth

/-- A text without line ends fits at the depth it is put at. -/
theorem Fits.ofText {depth : Nat} {text : String} (single : SingleLine text) :
    Fits depth ⟨depth, text⟩ :=
  ⟨single, fun _ => Nat.le_refl depth⟩

/-- What fits in a body fits at the depth around it. -/
theorem Fits.outer {depth : Nat} {line : Line} (fits : line.Fits (depth + 1)) : line.Fits depth :=
  ⟨fits.single, fun filled => Nat.le_of_succ_le (fits.deep filled)⟩

/-- An empty line fits at any depth. -/
theorem fits_blank (depth : Nat) : blank.Fits depth :=
  ⟨by decide, fun filled => absurd rfl filled⟩

/-- The closing bracket of a body fits at the depth of its head. -/
theorem fits_brace (depth : Nat) : ∀ line ∈ [mk depth "\x7d"], line.Fits depth :=
  List.forall_mem_singleton.2 (.ofText (by decide))

/-- A head, the deeper lines of a body, and what stands behind them. -/
theorem fits_block {depth : Nat} {opening : String} {body behind : List Line}
    (opens : SingleLine opening) (inner : ∀ line ∈ body, line.Fits (depth + 1))
    (later : ∀ line ∈ behind, line.Fits depth) :
    ∀ line ∈ ⟨depth, opening⟩ :: (body ++ behind), line.Fits depth := by
  refine List.forall_mem_cons.2 ⟨.ofText opens, List.forall_mem_append.2 ⟨?_, later⟩⟩
  exact fun line listed => (inner line listed).outer

end Line

namespace Glsl

variable {names : Renaming}

open Line (fits_blank fits_brace fits_block)

/-- A declarator holds no line end, given names and terms without any. -/
theorem Declarator.singleLine {declarator : Declarator}
    (heads : ∀ name ∈ declarator.heads, name.Spelled SinglePiece names)
    (terms : ∀ term ∈ declarator.terms, term.IsWoven SinglePiece names) :
    SingleLine (declarator.text names) :=
  .of_woven (Declarator.woven_text heads terms)

/-- The lines of a structure fit at its depth, given names and terms without line ends. -/
theorem fits_struct {depth : Nat} {name : Name} {fields : List Declarator}
    (named : name.Spelled SinglePiece names)
    (heads : ∀ name ∈ fields.flatMap Declarator.heads, name.Spelled SinglePiece names)
    (terms : ∀ term ∈ fields.flatMap Declarator.terms, term.IsWoven SinglePiece names) :
    ∀ line ∈ structLines names depth name fields, line.Fits depth := by
  have inner : ∀ line ∈ fields.map fun field => Line.mk (depth + 1) (field.text names ++ ";"),
      line.Fits (depth + 1) := by
    refine List.forall_mem_map.2 fun field listed => .ofText (.append ?_ (by decide))
    exact field.singleLine
      (fun name inside => heads name (List.mem_flatMap.2 ⟨field, listed, inside⟩))
      (fun term inside => terms term (List.mem_flatMap.2 ⟨field, listed, inside⟩))
  have behind : ∀ line ∈ if depth = 0 then [Line.blank] else [], line.Fits depth := by
    split
    · exact List.forall_mem_singleton.2 (fits_blank depth)
    · exact List.forall_mem_nil _
  rw [structLines, List.append_assoc]
  exact fits_block (.append (.append (by decide) (named .enclosed)) (by decide)) inner
    (List.forall_mem_cons.2 ⟨.ofText (by decide), behind⟩)

namespace Stmt

mutual

/-- The lines of a statement fit its depth when its names and terms hold no line end. -/
theorem fits_lines (depth : Nat) :
    (stmt : Stmt) → (∀ name ∈ stmt.heads, name.Spelled SinglePiece names) →
      (∀ term ∈ stmt.terms, term.IsWoven SinglePiece names) →
      ∀ line ∈ stmt.lines names depth, line.Fits depth
  | declare storage declarator, heads, terms => by
    have stored : SingleLine storage.text := by cases storage <;> decide
    have declared := declarator.singleLine heads terms
    exact List.forall_mem_singleton.2 (.ofText ((stored.append declared).append (by decide)))
  | sampler isLow base name, heads, _ => by
    have named : SingleLine (name.text names) := heads name List.mem_cons_self .enclosed
    have precise : SingleLine (if isLow then "lowp " else "") := by cases isLow <;> decide
    have typed := (LanguageWord.type base).singleLine
    have front : SingleLine ("uniform " ++ (if isLow then "lowp " else "") ++ base.spelling) :=
      .append (.append (by decide) precise) typed
    exact List.forall_mem_singleton.2
      (.ofText (.append (.append (front.append (by decide)) named) (by decide)))
  | define name replacement, heads, terms => by
    obtain ⟨named, inReplacement⟩ := List.forall_mem_cons.1 heads
    have stands : SingleLine (replacement.text names) :=
      .of_woven (Replacement.woven_text inReplacement terms)
    have front : SingleLine ("#define " ++ name.text names) := .append (by decide) (named .enclosed)
    exact List.forall_mem_singleton.2 (.ofText ((front.append (by decide)).append stands))
  | struct name fields, heads, terms => by
    obtain ⟨named, inFields⟩ := List.forall_mem_cons.1 heads
    exact fits_struct named inFields terms
  | function prototype body, heads, terms => by
    obtain ⟨inHead, inBody⟩ := List.forall_mem_append.1 heads
    obtain ⟨headTerms, bodyTerms⟩ := List.forall_mem_append.1 terms
    have head : SingleLine (prototype.text names) :=
      .of_woven (Prototype.woven_text singleVocabulary.toLexicon inHead headTerms)
    have inner := fits_linesAll (depth + 1) body inBody bodyTerms
    have closing : ∀ line ∈ [Line.mk depth "\x7d", Line.blank], line.Fits depth :=
      List.forall_mem_cons.2 ⟨.ofText (by decide), List.forall_mem_singleton.2 (fits_blank depth)⟩
    rw [lines]
    exact fits_block (head.append (by decide)) inner closing
  | branch condition whenTrue none, heads, terms => by
    obtain ⟨test, later⟩ := List.forall_mem_cons.1 terms
    have head : SingleLine ("if (" ++ condition.text names) :=
      .append (by decide) (.of_woven (test .enclosed))
    have chosen := fits_linesAll (depth + 1) whenTrue heads later
    rw [lines]
    exact fits_block (head.append (by decide)) chosen (fits_brace depth)
  | branch condition whenTrue (some whenFalse), heads, terms => by
    obtain ⟨inTrue, inFalse⟩ := List.forall_mem_append.1 heads
    obtain ⟨test, later⟩ := List.forall_mem_cons.1 terms
    obtain ⟨trueTerms, falseTerms⟩ := List.forall_mem_append.1 later
    have head : SingleLine ("if (" ++ condition.text names) :=
      .append (by decide) (.of_woven (test .enclosed))
    have chosen := fits_linesAll (depth + 1) whenTrue inTrue trueTerms
    have other := fits_linesAll (depth + 1) whenFalse inFalse falseTerms
    rw [lines]
    exact fits_block (head.append (by decide)) chosen
      (fits_block (by decide) other (fits_brace depth))
  | loop start condition step body, heads, terms => by
    obtain ⟨inStart, inBody⟩ := List.forall_mem_append.1 heads
    obtain ⟨headTerms, bodyTerms⟩ := List.forall_mem_append.1 terms
    obtain ⟨firstTerms, steps⟩ := List.forall_mem_append.1 headTerms
    obtain ⟨starts, tests⟩ := List.forall_mem_append.1 firstTerms
    have head : SingleLine (loopHead names start condition step) :=
      .of_woven (woven_loopHead singleVocabulary.toLexicon inStart starts tests steps)
    have inner := fits_linesAll (depth + 1) body inBody bodyTerms
    rw [lines]
    exact fits_block (head.append (by decide)) inner (fits_brace depth)
  | block body, heads, terms => by
    have inner := fits_linesAll (depth + 1) body heads terms
    rw [lines]
    exact fits_block (by decide) inner (fits_brace depth)
  | result none, _, _ => List.forall_mem_singleton.2 (.ofText (by decide))
  | result (some value), _, terms => by
    have returned : SingleLine (value.text names) :=
      .of_woven (terms value List.mem_cons_self .enclosed)
    exact List.forall_mem_singleton.2
      (.ofText (.append (.append (by decide) returned) (by decide)))
  | discard, _, _ => List.forall_mem_singleton.2 (.ofText (by decide))
  | leave, _, _ => List.forall_mem_singleton.2 (.ofText (by decide))
  | next, _, _ => List.forall_mem_singleton.2 (.ofText (by decide))
  | effect done, _, terms => by
    have made : SingleLine (done.text names) := .of_woven (Effect.woven_text terms)
    exact List.forall_mem_singleton.2 (.ofText (made.append (by decide)))
  | faulty _, _, _ => List.forall_mem_nil _

/-- The lines of several statements fit at their depth, given names and terms without line ends. -/
theorem fits_linesAll (depth : Nat) :
    (stmts : List Stmt) → (∀ name ∈ headsAll stmts, name.Spelled SinglePiece names) →
      (∀ term ∈ termsAll stmts, term.IsWoven SinglePiece names) →
      ∀ line ∈ linesAll names depth stmts, line.Fits depth
  | [], _, _ => List.forall_mem_nil _
  | stmt :: rest, heads, terms => by
    obtain ⟨inStmt, inRest⟩ := List.forall_mem_append.1 heads
    obtain ⟨own, later⟩ := List.forall_mem_append.1 terms
    exact List.forall_mem_append.2
      ⟨fits_lines depth stmt inStmt own, fits_linesAll depth rest inRest later⟩

end

end Stmt

end Glsl

/-! ## Lines of a shader -/

namespace Line

/-- What stands on a line, with its indentation and without the line end. -/
def content (line : Line) : String :=
  (if line.text = "" then "" else indentation line.depth) ++ line.text

/-- A line that fits holds no line end with its indentation either. -/
theorem Fits.singleLine_content {depth : Nat} {line : Line} (fits : line.Fits depth) :
    SingleLine line.content := by
  refine .append ?_ fits.single
  split
  · exact (by decide : SingleLine "")
  · unfold SingleLine indentation
    rw [String.toList_ofList]
    intro ended
    cases List.eq_of_mem_replicate ended

/-- Unless it is empty, a line starts with four blanks for each level of the depth it fits. -/
theorem Fits.isPrefix {depth : Nat} {line : Line} (fits : line.Fits depth)
    (filled : line.content.toList ≠ []) :
    List.replicate (4 * depth) ' ' <+: line.content.toList := by
  have hasText : line.text ≠ "" := by
    intro empty
    simp [content, empty] at filled
  have whole : line.content.toList = List.replicate (4 * line.depth) ' ' ++ line.text.toList := by
    simp [content, hasText, indentation]
  obtain ⟨further, deeper⟩ := Nat.exists_eq_add_of_le (fits.deep hasText)
  rw [whole, deeper, Nat.mul_add, ← List.replicate_append_replicate, List.append_assoc]
  exact List.prefix_append _ _

/-- The lines of a text are found again between its line ends, and nothing stands behind the last
one. -/
theorem splitOn_renderAll {depth : Nat} {lines : List Line}
    (fits : ∀ line ∈ lines, line.Fits depth) :
    (renderAll lines).toList.splitOn '\n' =
      lines.map (fun line => line.content.toList) ++ [[]] := by
  induction lines with
  | nil => rfl
  | cons line rest ih =>
    obtain ⟨first, later⟩ := List.forall_mem_cons.1 fits
    have single : ∀ ch ∈ line.content.toList, (ch == '\n') = false := by
      intro ch inside
      refine beq_eq_false_iff_ne.2 ?_
      rintro rfl
      exact first.singleLine_content inside
    have whole : (renderAll (line :: rest)).toList =
        line.content.toList ++ '\n' :: (renderAll rest).toList := by
      simp [renderAll_cons, render, content]
    rw [whole, List.splitOn, List.splitOnP_append_cons_of_forall_mem single '\n' rfl]
    rw [List.splitOn] at ih
    rw [ih later, List.map_cons, List.cons_append]

end Line

namespace Context

variable {c : Context} {names : Renaming}

/-- The variable that a returned value is stored in holds no line end. -/
theorem woven_returnVariable {place : Glsl.Term} (stored : c.returnVariable? = some place) :
    place.IsWoven SinglePiece names := by
  rcases returnVariable?_eq_some stored with ⟨semantic, variableName, found, rfl⟩ | ⟨slot, rfl⟩
  · exact Glsl.Term.woven_named singleVocabulary.toLexicon
      (fun _ => (builtIn?_languageWord found).singleLine) List.mem_cons_self
  · exact Glsl.Term.woven_named singleVocabulary.toLexicon
      (singleVocabulary.color _ _ _) c.entry.result.base.narrowing_mem

/-- The lines of a statement of the shader fit its depth. -/
theorem fits_lower (free : ∀ word ∈ c.shader.tokens, SingleLine word)
    (chosen : Renaming.ofTokens c.shader.tokens = .ok names)
    (entry : c.entry.result.BelongsTo c.shader) {s : Statement} {scope : Scope}
    (belongs : s.BelongsTo c.shader) (returned : scope.BelongsTo c.shader) (depth : Nat) :
    ∀ line ∈ Glsl.Stmt.linesAll names depth (s.lower c scope), line.Fits depth := by
  refine Glsl.Stmt.fits_linesAll depth _ (fun head written => ?_) (fun term written => ?_)
  · exact singleVocabulary.name chosen free (Statement.heads_lower belongs head written).accounted
  · rcases (s.covers_lower c scope).origin term written with ⟨site, listed, rfl⟩ | stored
    · exact singleVocabulary.woven_lower chosen free c
        (Statement.sites_belong entry belongs returned site listed)
    · exact woven_returnVariable stored

end Context

/-! ## Macros and texts -/

/-- A statement writes a macro: for a global property that is an array with initial values, and for
a buffer that is a big array. -/
inductive Statement.Defines (c : Context) (scope : Scope) :
    Statement → Glsl.Name → Glsl.Replacement → Prop where
  | property {declaration : Declaration} (kept : declaration.isSuppressed c = false)
      (isGlobal : scope.isGlobal = true) (isProperty : declaration.ty.isProperty = true)
      (isArray : declaration.ty.isArray = true) (filled : declaration.initializer.isEmpty = false) :
      Defines c scope (.declare declaration) (.source declaration.name)
        (.array (declaration.arrayLiteral c))
  | buffer {name : String} {content : Declaration} {register : String}
      (isBig : content.bigArrayRegister? = some register) :
      Defines c scope (.buffer name content) (.source content.name) (.name (.verbatim register))

/-- A statement that writes a macro is lowered to that macro. -/
theorem Statement.Defines.mem_lower {c : Context} {scope : Scope} {s : Statement}
    {name : Glsl.Name} {replacement : Glsl.Replacement}
    (defines : s.Defines c scope name replacement) :
    Glsl.Stmt.define name replacement ∈ s.lower c scope := by
  cases defines with
  | property kept isGlobal isProperty isArray filled =>
    simp [lower, Declaration.lower, Declaration.lowerGlobal, kept, isGlobal, isProperty, isArray,
      filled]
  | buffer isBig => simp [lower, Declaration.lowerBuffer, isBig]

/-- The statements of a program, and the scopes that they stand in, belong to its shader. -/
theorem Context.Places.belongs {c : Context} (listed : c.EntryListed) {s : Statement}
    {scope : Scope} {depth : Nat} (places : c.Places s scope depth) :
    s.BelongsTo c.shader ∧ scope.BelongsTo c.shader := by
  have entry := Shader.belongsTo_of_mem listed
  have shader : ∀ t ∈ c.shader, t.BelongsTo c.shader := fun _ member =>
    Shader.belongsTo_of_mem member
  rcases places with inShader | inMain
  · exact ⟨inShader.occurs.belongs shader, inShader.scope_belongs shader (by rintro _ ⟨⟩)⟩
  · refine ⟨inMain.occurs.belongs entry.functionBody, inMain.scope_belongs entry.functionBody ?_⟩
    rintro _ ⟨⟩
    exact entry.functionResult

section Discipline

variable {c : Context} {names : Renaming} {s : Statement} {scope : Scope} {depth : Nat}
  (listed : c.EntryListed) (free : ∀ word ∈ c.shader.tokens, SingleLine word)
  (chosen : Renaming.ofTokens c.shader.tokens = .ok names)

include listed free chosen

/-- The text of a statement of the shader consists of lines that are empty or indented by its
depth. -/
theorem Statement.indented_textAt (occurs : s.Occurs c.shader)
    (returned : scope.BelongsTo c.shader) :
    ∀ line ∈ (s.textAt c names scope depth).toList.splitOn '\n', line ≠ [] →
      List.replicate (4 * depth) ' ' <+: line := by
  have entry := (Shader.belongsTo_of_mem listed).functionResult
  have belongs := occurs.belongs fun _ member => Shader.belongsTo_of_mem member
  have fits := c.fits_lower free chosen entry belongs returned depth
  rw [textAt, Line.splitOn_renderAll fits]
  intro line found filled
  rcases List.mem_append.1 found with inside | last
  · obtain ⟨source, member, rfl⟩ := List.mem_map.1 inside
    exact (fits source member).isPrefix filled
  · exact absurd (List.mem_singleton.1 last) filled

/-- A macro is a whole line of the text. -/
theorem Context.text_of_defines {name : Glsl.Name} {replacement : Glsl.Replacement}
    (places : c.Places s scope depth) (defines : s.Defines c scope name replacement) :
    ∃ before directive after,
      c.program.text names = before ++ (indentation depth ++ directive ++ "\n") ++ after ∧
      directive = "#define " ++ name.text names ++ " " ++ replacement.text names ∧
      AtLineStart before ∧ SingleLine directive := by
  have entry := (Shader.belongsTo_of_mem listed).functionResult
  obtain ⟨belongs, returned⟩ := places.belongs listed
  have written : Line.mk depth ("#define " ++ name.text names ++ " " ++ replacement.text names) ∈
      Glsl.Stmt.linesAll names depth (s.lower c scope) := by
    rw [Glsl.Stmt.linesAll_eq_flatMap]
    exact List.mem_flatMap.2 ⟨_, defines.mem_lower, List.mem_cons_self⟩
  have single := (c.fits_lower free chosen entry belongs returned depth _ written).single
  -- The line of the macro is one of the program's, so whole lines stand in front of it.
  obtain ⟨front, back, text⟩ := List.append_of_mem ((places.lines names).subset written)
  refine ⟨Line.renderAll front, _, Line.renderAll back, ?_, rfl, ?_, single⟩
  · simp [Glsl.Program.text, text, Line.renderAll_cons, Line.render, String.append_assoc]
  · simpa using AtLineStart.append (Or.inl rfl) front

end Discipline

/-- A text is written line by line where the strings of its shader hold no line end. Every statement
is written from the start of a line to the start of another, whatever its faults. Each line that it
writes at a depth is empty or starts with four blanks for each level. No expression holds a line
end. So the macro of an array property or of a big array is one whole line of the text. -/
theorem lines_disciplined {c : Context} {names : Renaming} (listed : c.EntryListed)
    (free : ∀ word ∈ c.shader.tokens, SingleLine word)
    (chosen : Renaming.ofTokens c.shader.tokens = .ok names) :
    (∀ (s : Statement) (scope : Scope) (depth : Nat) (start : String),
      Append.run start (s.steps c names scope depth) = start ++ s.textAt c names scope depth ∧
        (AtLineStart start → AtLineStart (Append.run start (s.steps c names scope depth)))) ∧
    (∀ (s : Statement) (scope : Scope) (depth : Nat), s.Occurs c.shader →
      scope.BelongsTo c.shader →
      ∀ line ∈ (s.textAt c names scope depth).toList.splitOn '\n', line ≠ [] →
        List.replicate (4 * depth) ' ' <+: line) ∧
    (∀ site : Site, site.BelongsTo c.shader → SingleLine ((site.lower c).text names)) ∧
    ∀ (s : Statement) (scope : Scope) (depth : Nat) (name : Glsl.Name)
      (replacement : Glsl.Replacement), c.Places s scope depth →
      s.Defines c scope name replacement →
      ∃ before directive after,
        c.program.text names = before ++ (indentation depth ++ directive ++ "\n") ++ after ∧
        directive = "#define " ++ name.text names ++ " " ++ replacement.text names ∧
        AtLineStart before ∧ SingleLine directive := by
  refine ⟨?_, ?_, ?_, ?_⟩
  · intro s scope depth start
    have added := s.run_steps c names scope depth start
    exact ⟨added, fun stands => added ▸ stands.append _⟩
  · intro s scope depth occurs returned
    exact Statement.indented_textAt listed free chosen occurs returned
  · intro site belongs
    exact .of_woven (singleVocabulary.woven_lower chosen free c belongs .enclosed)
  · intro s scope depth name replacement places defines
    exact Context.text_of_defines listed free chosen places defines

/-- A product of one factor, stored under a condition. -/
def faultyBranch : Statement :=
  let wide : Expr := .identifier "wide" (Ty.ofBase .float)
  .branch (.identifier "lit" (Ty.ofBase .bool))
    [.evaluate (.ofAssign wide (.ofCall "mul" [wide] (Ty.ofBase .float)))] none

/-- An entry with a statement that is faulty. -/
def faultyEntry : Function :=
  ⟨⟨"main", Ty.ofBase .void, none, []⟩, [faultyBranch]⟩

/-- A property that is an array, a buffer that is a big array, and the entry. -/
def macroShader : Shader :=
  let count : Expr := .identifier "count" (Ty.ofBase .int)
  [.declare ⟨"weights", ⟨.float, none, true, some count, false, true⟩, none, none,
    [.identifier "gain" (Ty.ofBase .float)]⟩,
  .buffer "Bones" ⟨"bones", ⟨.float, none, true, some count, false, false⟩, some "c0",
    some "bigarray", []⟩,
  .function faultyEntry.toSignature faultyEntry.body]

/-- The branch is written as whole lines with their indentation in spite of its fault, its condition
holds no line end, and the macros are whole lines. -/
theorem macroShader_disciplined :
    let c := Context.ofEntry macroShader ⟨.mobileA, .legacy, .vertex⟩ faultyEntry
    ∃ names, Renaming.ofTokens (Shader.tokens macroShader) = .ok names ∧
      c.program.faults = [.arity "mul" 2 1] ∧
      AtLineStart (Append.run "" (faultyBranch.steps c names c.mainScope 1)) ∧
      (∀ line ∈ (faultyBranch.textAt c names c.mainScope 1).toList.splitOn '\n', line ≠ [] →
        List.replicate 4 ' ' <+: line) ∧
      SingleLine ((Site.lower c ⟨some boolTy, .identifier "lit" (Ty.ofBase .bool)⟩).text names) ∧
      (∃ before after, c.program.text names =
        before ++ (indentation 0 ++ "#define weights (float[count](gain))" ++ "\n") ++ after ∧
          AtLineStart before) ∧
      ∃ before after, c.program.text names =
        before ++ (indentation 0 ++ "#define bones c0" ++ "\n") ++ after ∧
          AtLineStart before := by
  intro c
  have free : ∀ word ∈ Shader.tokens macroShader, SingleLine word := by decide +kernel
  have chosen : Renaming.ofTokens (Shader.tokens macroShader) = .ok _ := rfl
  have listed : c.EntryListed :=
    List.mem_cons_of_mem _ (List.mem_cons_of_mem _ List.mem_cons_self)
  have occurs : faultyBranch.Occurs c.shader :=
    .inside listed List.mem_cons_self (.here List.mem_cons_self)
  have belongs := Shader.belongsTo_of_mem listed
  have returned : c.mainScope.BelongsTo c.shader := by
    rintro _ ⟨⟩
    exact belongs.functionResult
  have condition : Site.BelongsTo c.shader ⟨some boolTy, .identifier "lit" (Ty.ofBase .bool)⟩ :=
    Statement.sites_belong (c := c) belongs.functionResult
      (occurs.belongs fun _ member => Shader.belongsTo_of_mem member) returned _ List.mem_cons_self
  obtain ⟨starts, indented, single, macros⟩ := lines_disciplined listed free chosen
  obtain ⟨before, directive, after, text, same, stands, -⟩ := macros _ Scope.global 0 _ _
    (Or.inl (.here List.mem_cons_self)) (.property rfl rfl rfl rfl rfl)
  obtain ⟨before', directive', after', text', same', stands', -⟩ := macros _ Scope.global 0 _ _
    (Or.inl (.here (List.mem_cons_of_mem _ List.mem_cons_self))) (.buffer rfl)
  refine ⟨_, chosen, rfl, (starts _ _ _ "").2 (Or.inl rfl), indented _ _ 1 occurs returned,
    single _ condition, ⟨before, after, ?_, stands⟩, before', after', ?_, stands'⟩
  · rw [text, same]
    rfl
  · rw [text', same']
    rfl

end GlslText
