import GlslText.Proofs.Qualifiers

/-!
# Discards follow the stage

A vertex cannot be discarded. Its text has no token of the word, neither from a statement at any
depth nor from the helper function that discards by a sign, provided the strings of the shader have
none: they are copied as they are. In a fragment each discard of the entry is one line of `main`,
and no other line of it is a discard.
-/

namespace GlslText

/-! ## Texts without a token -/

/-- A reader that stops behind one word. -/
def refusing (word : String) (_ : Bool) : List (List Char) :=
  [word.toList]

/-- A text is read to its end from any state unless the refused word is a token of it, together with
what has been read of the word in front. -/
theorem WordReader.reads_or_token (word : String) (before : Bool) (front text : List Char) :
    (∃ reader, text.foldlM (step (refusing word)) ⟨before, front⟩ = some reader ∧
      reader.word ≠ word.toList) ∨
    ∃ left right, front ++ text = left ++ (word.toList ++ right) ∧
      (∀ ch ∈ left.getLast?, isNameChar ch = false) ∧
      ∀ ch ∈ right.head?, isNameChar ch = false := by
  induction text generalizing before front with
  | nil =>
    by_cases same : front = word.toList
    · exact Or.inr ⟨[], [], by simp [same], by simp, by simp⟩
    · exact Or.inl ⟨⟨before, front⟩, rfl, same⟩
  | cons ch rest ih =>
    cases inName : isNameChar ch with
    | true =>
      rw [List.foldlM_cons, step_of_isNameChar inName, List.append_cons front ch rest]
      exact ih before (front ++ [ch])
    | false =>
      by_cases same : front = word.toList
      · refine Or.inr ⟨[], ch :: rest, by simp [same], by simp, fun other first => ?_⟩
        obtain rfl := Option.some.inj first
        exact inName
      · have stepped : step (refusing word) ⟨before, front⟩ ch =
            some ⟨openedAfter before ch, []⟩ :=
          (step_eq_some_iff inName).2 ⟨by simpa [refusing] using same, rfl⟩
        rw [List.foldlM_cons, stepped]
        refine (ih (openedAfter before ch) []).imp_right ?_
        rintro ⟨left, right, split, starts, ends⟩
        refine ⟨front ++ ch :: left, right, by simpa using split, fun other last => ?_, ends⟩
        rw [List.getLast?_append_cons, List.getLast?_cons] at last
        obtain rfl := Option.some.inj last
        cases ending : left.getLast? with
        | none => exact inName
        | some final => exact starts final ending

/-- A name other than the word passes. -/
theorem Passes.of_ne {text word : String} (chars : AllChars isNameChar text) (other : text ≠ word) :
    Passes (refusing word) .outside text.toList :=
  .word chars fun _ => by simpa [refusing, String.toList_inj] using other

/-- A text without the token passes. -/
theorem Passes.of_not_hasToken {text word : String} (absent : ¬HasToken text word) :
    Passes (refusing word) .outside text.toList := by
  intro before
  rcases WordReader.reads_or_token word before [] text.toList with
    ⟨reader, read, other⟩ | ⟨left, right, split, starts, ends⟩
  · exact ⟨reader.opened, reader.word, read, by simpa [refusing] using other⟩
  · exact absurd ⟨left, right, split, starts, ends⟩ absent

/-- A text that passes a reader refusing a word does not have the word as a token. -/
theorem Passes.not_hasToken {text word : String} (inName : AllChars isNameChar word)
    (passes : Passes (refusing word) .outside text.toList) : ¬HasToken text word := by
  obtain ⟨after, reads⟩ := passes false
  exact reads.not_hasToken inName fun _ => List.mem_singleton_self _

/-- What is woven from texts that pass wherever they stand passes wherever it stands. -/
theorem Woven.passes_outside {refused : Bool → List (List Char)}
    (quiet : ∀ opened, [] ∉ refused opened) {place : Place} {text : List Char}
    (woven : Woven (fun _ piece => Passes refused .outside piece.toList) place text) :
    Passes refused .outside text := by
  induction woven with
  | empty => exact .word (List.forall_mem_nil _) quiet
  | piece passes => exact passes
  | mark ch mark _ _ first second => exact first.join_outside (isNameChar_of_isMark mark) second
  | round _ _ _ front between back =>
    exact front.join_outside rfl (between.join_outside rfl back)
  | square _ _ _ front between back =>
    exact front.join_outside rfl (between.join_outside rfl back)
  | curly _ _ _ front between back =>
    exact front.join_outside rfl (between.join_outside rfl back)
  | lineEnd _ _ front back => exact front.join_outside rfl back

/-- A text in front that has not the first character of a word makes it no token. -/
theorem HasToken.of_append {start text word : String} {first : Char} {rest : List Char}
    (begins : word.toList = first :: rest) (other : first ∉ start.toList)
    (token : HasToken (start ++ text) word) : HasToken text word := by
  obtain ⟨front, back, split, starts, ends⟩ := token
  rw [String.toList_append, List.append_eq_append_iff] at split
  rcases split with ⟨shared, rfl, behind⟩ | ⟨shared, cut, behind⟩
  · exact ⟨shared, back, behind,
      fun ch last => starts ch (List.mem_getLast?_append_of_mem_getLast? last), ends⟩
  · cases shared with
    | nil => exact ⟨[], back, behind.symm, by simp, ends⟩
    | cons ch later =>
      rw [begins, List.cons_append, List.cons_append] at behind
      obtain ⟨rfl, -⟩ := List.cons.inj behind
      exact absurd (by simp [cut]) other

/-! ## Vertex stages -/

/-- A piece that is read to its end without a discard. -/
def Quiet (_ : Place) (piece : String) : Prop :=
  Passes (refusing "discard") .outside piece.toList

/-- A piece that has none of the marked words is quiet, since the word for a discard is one of
them. -/
theorem quiet_of_marked {place : Place} {piece : String}
    (passes : Passes markedChars .outside piece.toList) : Quiet place piece :=
  passes.mono (by decide)

/-- Whatever a text is woven from, but for the discards of a fragment, is quiet, given strings
without the token. -/
theorem quietVocabulary : Vocabulary (fun word => ¬HasToken word "discard") Quiet := by
  refine IsPlain.vocabulary (fun word plain place => quiet_of_marked (plain.passes .outside))
    (fun place text woven => Woven.passes_outside (by decide) woven) (fun text listed => ?_)
    (fun text absent place => Passes.of_not_hasToken absent)
    fun text absent start listed place => Passes.of_not_hasToken fun token => ?_
  · have table : ∀ text ∈ ["in", "inout", "out"], AllChars isNameChar text ∧ text ≠ "discard" := by
      decide
    exact .of_ne (table text listed).1 (table text listed).2
  · have table : ∀ start ∈ ["attr_", "var_"], 'd' ∉ start.toList := by decide
    exact absent (token.of_append rfl (table start listed))

/-- The phrases of a vertex stage are quiet: it has no discards. -/
theorem Profile.quietPhrases {profile : Profile} (vertex : profile.isFragment = false) :
    profile.Phrases Quiet where
  preamble line listed := quiet_of_marked (profile.preamble_passes line listed)
  qualifier qualifier _ := by
    cases qualifier <;> exact .of_ne (by decide) (by decide)
  direction _ word listed := by
    have table : ∀ word ∈ ["layout", "inout", "out"],
        AllChars isNameChar word ∧ word ≠ "discard" := by
      decide
    exact .of_ne (table word listed).1 (table word listed).2
  discard isFragment := by
    rw [vertex] at isFragment
    cases isFragment

/-! ## Lines that discard -/

/-- How many of the lines are discards. -/
def discardLines (lines : List Line) : Nat :=
  lines.countP fun line => line.text = "discard;"

/-- An empty list of lines has no discards. -/
@[simp]
theorem discardLines_nil : discardLines [] = 0 :=
  rfl

/-- The discards among two groups of lines add up. -/
theorem discardLines_append (first second : List Line) :
    discardLines (first ++ second) = discardLines first + discardLines second :=
  List.countP_append

/-- A line other than a discard does not count. -/
theorem discardLines_cons_of_ne {text : String} (other : text ≠ "discard;") (depth : Nat)
    (rest : List Line) : discardLines (⟨depth, text⟩ :: rest) = discardLines rest :=
  List.countP_cons_of_neg (by simpa using other)

/-- A line with a blank in it is no discard. -/
theorem ne_discard_of_blank {text : String} (blank : ' ' ∈ text.toList) : text ≠ "discard;" := by
  rintro rfl
  exact absurd blank (by decide)

namespace Glsl

variable {names : Renaming}

/-- A declarator has a blank between its type and its name. -/
theorem Declarator.blank_mem (declarator : Declarator) :
    ' ' ∈ (declarator.text names).toList := by
  simp [text]

/-- Lines that declare something are no discards. -/
theorem discardLines_declarators (depth : Nat) (declarators : List Declarator) :
    discardLines (declarators.map fun declarator => ⟨depth, declarator.text names ++ ";"⟩) = 0 := by
  induction declarators with
  | nil => rfl
  | cons declarator rest ih =>
    have blank : ' ' ∈ (declarator.text names ++ ";").toList := by
      simp [declarator.blank_mem]
    rw [List.map_cons, discardLines_cons_of_ne (ne_discard_of_blank blank), ih]

/-- The lines of a structure are no discards. -/
theorem discardLines_struct (depth : Nat) (name : Name) (fields : List Declarator) :
    discardLines (structLines names depth name fields) = 0 := by
  have blank : ' ' ∈ ("struct " ++ name.text names ++ " \x7b").toList := by simp
  have behind : discardLines (if depth = 0 then [Line.blank] else []) = 0 := by
    split <;> rfl
  rw [structLines, discardLines_cons_of_ne (ne_discard_of_blank blank), discardLines_append,
    discardLines_append, discardLines_declarators, behind]
  rfl

namespace Stmt

/-- A body between its head and its closing bracket. -/
theorem discardLines_body {depth : Nat} {head : String} {body behind : List Line}
    (blank : ' ' ∈ head.toList) :
    discardLines (⟨depth, head⟩ :: (body ++ ⟨depth, "\x7d"⟩ :: behind)) =
      discardLines body + discardLines behind := by
  rw [discardLines_cons_of_ne (ne_discard_of_blank blank), discardLines_append,
    discardLines_cons_of_ne (by decide)]

mutual

/-- The lines of a statement that are discards are those of its discards, unless a term that is
evaluated reads as one. -/
theorem discardLines_lines (depth : Nat) : (stmt : Stmt) →
    (∀ term ∈ stmt.terms, term.text names ≠ "discard") →
      discardLines (stmt.lines names depth) = stmt.discards
  | declare storage declarator, _ => by
    have blank : ' ' ∈ (storage.text ++ declarator.text names ++ ";").toList := by
      simp [declarator.blank_mem]
    rw [lines, discardLines_cons_of_ne (ne_discard_of_blank blank)]
    rfl
  | sampler isLow base name, _ => by
    rw [lines, discardLines_cons_of_ne (ne_discard_of_blank (by simp))]
    rfl
  | define name replacement, _ => by
    rw [lines, discardLines_cons_of_ne (ne_discard_of_blank (by simp))]
    rfl
  | struct name fields, _ => discardLines_struct depth name fields
  | function prototype body, terms => by
    have inner := discardLines_linesAll (depth + 1) body (List.forall_mem_append.1 terms).2
    rw [lines, discardLines_body (by simp), inner]
    rfl
  | branch condition whenTrue none, terms => by
    have inner := discardLines_linesAll (depth + 1) whenTrue (List.forall_mem_cons.1 terms).2
    rw [lines, discardLines_body (by simp), inner]
    rfl
  | branch condition whenTrue (some whenFalse), terms => by
    obtain ⟨inTrue, inFalse⟩ := List.forall_mem_append.1 (List.forall_mem_cons.1 terms).2
    have chosen := discardLines_linesAll (depth + 1) whenTrue inTrue
    have other := discardLines_linesAll (depth + 1) whenFalse inFalse
    rw [lines, discardLines_cons_of_ne (ne_discard_of_blank (by simp)), discardLines_append,
      discardLines_body (by decide), chosen, other]
    rfl
  | loop start condition step body, terms => by
    have inner := discardLines_linesAll (depth + 1) body (List.forall_mem_append.1 terms).2
    rw [lines, discardLines_body (by simp [loopHead]), inner]
    rfl
  | block body, terms => by
    have inner := discardLines_linesAll (depth + 1) body terms
    rw [lines, discardLines_cons_of_ne (by decide), discardLines_append, inner]
    rfl
  | result none, _ => by
    rw [lines, discardLines_cons_of_ne (by decide)]
    rfl
  | result (some value), _ => by
    rw [lines, discardLines_cons_of_ne (ne_discard_of_blank (by simp))]
    rfl
  | discard, _ => by
    rw [lines]
    rfl
  | leave, _ => by
    rw [lines, discardLines_cons_of_ne (by decide)]
    rfl
  | next, _ => by
    rw [lines, discardLines_cons_of_ne (by decide)]
    rfl
  | effect (.store op left right), _ => by
    rw [lines, discardLines_cons_of_ne (ne_discard_of_blank (by simp [Effect.text]))]
    rfl
  | effect (.evaluate term), terms => by
    have ends : "discard;" = "discard" ++ ";" := by decide
    have other : term.text names ++ ";" ≠ "discard;" := by
      rw [ends]
      exact fun same => terms term List.mem_cons_self ((String.append_left_inj ";").1 same)
    rw [lines, Effect.text, discardLines_cons_of_ne other]
    rfl
  | faulty _, _ => rfl

/-- The lines of several statements that are discards are those of their discards, under the same
condition on terms. -/
theorem discardLines_linesAll (depth : Nat) : (stmts : List Stmt) →
    (∀ term ∈ termsAll stmts, term.text names ≠ "discard") →
      discardLines (linesAll names depth stmts) = discardsAll stmts
  | [], _ => rfl
  | stmt :: rest, terms => by
    obtain ⟨own, later⟩ := List.forall_mem_append.1 terms
    rw [linesAll, discardLines_append, discardLines_lines depth stmt own,
      discardLines_linesAll depth rest later]
    rfl

end

end Stmt

/-- The lines that declare properties are no discards. -/
theorem Program.discardLines_properties (program : Program) :
    discardLines (program.propertyLines names) = 0 := by
  unfold propertyLines
  split
  · rfl
  · rw [discardLines_cons_of_ne (by decide), discardLines_append, discardLines_declarators]
    rfl

/-- The discards of `main` are those of its body. -/
theorem Program.discardLines_main {program : Program}
    (terms : ∀ term ∈ program.terms, term.text names ≠ "discard") :
    discardLines (program.mainLines names) = Stmt.discardsAll program.body := by
  have body := Stmt.discardLines_linesAll 1 program.body (List.forall_mem_append.1 terms).2
  rw [mainLines, discardLines_append, discardLines_append, discardLines_append, body,
    program.discardLines_properties, discardLines_cons_of_ne (by decide),
    discardLines_cons_of_ne (by decide), discardLines_cons_of_ne (by decide)]
  simp

end Glsl

/-! ## Generated texts -/

/-- A word is a token of itself. -/
theorem hasToken_self (word : String) : HasToken word word :=
  ⟨[], [], by simp, by simp, by simp⟩

/-- No term of a program is the word for a discard where the strings of the shader have it not. -/
theorem Context.term_ne_discard {shader : Shader} {profile : Profile} {entryName : String}
    {entry : Function} {names : Renaming}
    (absent : ∀ word ∈ shader.tokens, ¬HasToken word "discard")
    (found : shader.function? entryName = some entry)
    (chosen : Renaming.ofTokens shader.tokens = .ok names) :
    ∀ term ∈ (ofEntry shader profile entry).program.terms, term.text names ≠ "discard" := by
  intro term listed same
  have woven : term.IsWoven Quiet names := by
    refine term.woven_text quietVocabulary.toLexicon (fun name inside => ?_)
      ((ofEntry shader profile entry).narrows_program term listed)
    have written := List.mem_flatMap.2 ⟨term, listed, inside⟩
    exact quietVocabulary.name chosen absent (names_accounted found name
      (List.mem_append_right _ (List.mem_append_right _ written)))
  have passes := Woven.passes_outside (by decide) (woven .outside)
  refine passes.not_hasToken (by decide) ?_
  rw [same]
  exact hasToken_self "discard"

/-- Suppose that no string of the shader has the word for a discard as a token. Then no text of a
vertex stage has it, whatever the shader discards or clips, at any depth. In a fragment the lines of
`main` that are discards are as many as the discards of the entry, at any depth, outside functions
that have the name of the entry. -/
theorem discards_follow_stage {shader : Shader} {profile : Profile} {entryName : String}
    {output : Output} {entry : Function}
    (absent : ∀ word ∈ shader.tokens, ¬HasToken word "discard")
    (generated : generate shader profile entryName = .ok output)
    (found : shader.function? entryName = some entry) :
    (profile.stage = .vertex → ¬HasToken output.text "discard") ∧
    (profile.stage = .fragment →
      ∃ names front, Renaming.ofTokens shader.tokens = .ok names ∧
        let main := (Context.ofEntry shader profile entry).program.mainLines names
        output.text = Line.renderAll (front ++ main) ∧
        discardLines main = Statement.discardsAll entryName entry.body) := by
  obtain ⟨other, names, run⟩ := generate_eq_ok_iff.1 generated
  obtain rfl := Option.some.inj (found.symm.trans run.found)
  constructor
  · intro vertex
    have phrases : profile.Phrases Quiet :=
      Profile.quietPhrases (by simp [Profile.isFragment, vertex])
    have woven := quietVocabulary.woven_program phrases run.found run.chosen absent
    rw [← run.text] at woven
    exact (Woven.passes_outside (by decide) woven).not_hasToken (by decide)
  · intro fragment
    obtain ⟨front, text⟩ := run.main_text
    refine ⟨names, front, run.chosen, text, ?_⟩
    have isFragment : profile.isFragment = true := by simp [Profile.isFragment, fragment]
    let c := Context.ofEntry shader profile entry
    have lowered : Glsl.Stmt.discardsAll c.program.body =
        if profile.isFragment then Statement.discardsAll entry.name entry.body else 0 :=
      Statement.discardsAll_lowerAll c c.mainScope entry.body
    rw [Glsl.Program.discardLines_main (Context.term_ne_discard absent found run.chosen), lowered,
      if_pos isFragment, (Shader.mem_of_function? found).2]

/-- An entry that discards in both branches of a conditional statement, in a loop and by a sign, and
has a function of its own name inside. -/
def discardedCorners : Shader :=
  let void := Ty.ofBase .void
  let depth : Expr := .identifier "depth" (Ty.ofBase (.vector (.float .full) .one))
  [.function ⟨"main", void, none, []⟩
    [.branch (.identifier "lit" (Ty.ofBase .bool)) [.discard] (some [.block [.discard]]),
    .loop none none none [.discard, .leave],
    .function ⟨"main", void, none, []⟩ [.discard],
    .evaluate (.ofCall "CLIP" [depth] void)]]

/-- The vertex text has no discard. The fragment text has the two of the branches and the one of the
loop; the function inside is not written, and the clipping is a call of a helper function. -/
theorem discardedCorners_counted :
    let profile (stage : Stage) : Profile := ⟨.mobileA, .legacy, stage⟩
    ∃ vertex fragment entry names front,
      generate discardedCorners (profile .vertex) "main" = .ok vertex ∧
      ¬HasToken vertex.text "discard" ∧
      generate discardedCorners (profile .fragment) "main" = .ok fragment ∧
      discardedCorners.function? "main" = some entry ∧
      Renaming.ofTokens discardedCorners.tokens = .ok names ∧
      let main := (Context.ofEntry discardedCorners (profile .fragment) entry).program.mainLines
        names
      fragment.text = Line.renderAll (front ++ main) ∧ discardLines main = 3 := by
  have absent : ∀ word ∈ Shader.tokens discardedCorners, ¬HasToken word "discard" := by
    have names : ∀ word ∈ Shader.tokens discardedCorners,
        AllChars isNameChar word ∧ word ≠ "discard" := by
      decide +kernel
    intro word listed
    exact (Passes.of_ne (names word listed).1 (names word listed).2).not_hasToken (by decide)
  have found : discardedCorners.function? "main" = some _ := rfl
  have vertex : generate discardedCorners ⟨.mobileA, .legacy, .vertex⟩ "main" = .ok _ := rfl
  have fragment : generate discardedCorners ⟨.mobileA, .legacy, .fragment⟩ "main" = .ok _ := rfl
  obtain ⟨names, front, chosen, text, count⟩ := (discards_follow_stage absent fragment found).2 rfl
  exact ⟨_, _, _, names, front, vertex, (discards_follow_stage absent vertex found).1 rfl, fragment,
    found, chosen, text, count⟩

/-- A uniform variable whose name has the word behind a point. -/
def dottedUniform : Shader :=
  [.declare ⟨"material.discard", Ty.ofBase (.vector (.float .full) .one), none, none, []⟩,
  .function ⟨"main", Ty.ofBase .void, none, []⟩ []]

/-- The name is not the word, and the text of the vertex stage has it as a token. -/
theorem dottedUniform_discards :
    (∀ word ∈ Shader.tokens dottedUniform, word ≠ "discard") ∧
    ∃ output, generate dottedUniform ⟨.desktopOther, .modern, .vertex⟩ "main" = .ok output ∧
      HasToken output.text "discard" := by
  let preamble : List Line :=
    (Profile.preamble ⟨.desktopOther, .modern, .vertex⟩ []).map (Line.mk 0)
  let main : List Line := [⟨0, "void main()"⟩, ⟨0, "\x7b"⟩, ⟨0, "\x7d"⟩]
  have generated : generate dottedUniform ⟨.desktopOther, .modern, .vertex⟩ "main" =
      .ok ⟨Line.renderAll (preamble ++ ⟨0, "uniform float material.discard;"⟩ :: main),
        .glsl330, []⟩ := rfl
  have declared : Line.render ⟨0, "uniform float material.discard;"⟩ =
      "uniform float material." ++ ("discard" ++ ";\n") := by
    decide +kernel
  refine ⟨by decide +kernel, _, generated,
    (Line.renderAll preamble).toList ++ "uniform float material.".toList,
    ";\n".toList ++ (Line.renderAll main).toList, ?_, fun ch last => ?_, fun ch next => ?_⟩
  · rw [Line.renderAll_append, Line.renderAll_cons, declared]
    simp only [String.toList_append, List.append_assoc]
  · have point : "uniform float material.".toList.getLast? = some '.' := by decide +kernel
    rw [List.getLast?_append, point] at last
    obtain rfl := Option.some.inj last
    rfl
  · have semicolon : ";\n".toList.head? = some ';' := by decide +kernel
    rw [List.head?_append, semicolon] at next
    obtain rfl := Option.some.inj next
    rfl

end GlslText
