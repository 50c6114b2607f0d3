import GlslText.Proofs.UniqueReading
import GlslText.Proofs.WovenProgram

/-!
# Brackets are balanced

A reader of brackets keeps those that are still open, the innermost first, and stops at a bracket
that closes none or one of another kind. A text is balanced when the reader gets through and
nothing is left open. Woven texts are balanced as soon as their pieces are, and so is every
generated text, and the text of every expression, of a shader without brackets in its strings.
-/

namespace GlslText

/-! ## The reader -/

/-- The kinds of brackets. -/
inductive Bracket where
  | round
  | square
  | curly
deriving DecidableEq, Repr

namespace Bracket

/-- The bracket that a character opens. -/
def opened? : Char → Option Bracket
  | '(' => some round
  | '[' => some square
  | '\x7b' => some curly
  | _ => none

/-- The bracket that a character closes. -/
def closed? : Char → Option Bracket
  | ')' => some round
  | ']' => some square
  | '\x7d' => some curly
  | _ => none

/-- The open brackets after a character, if it closes none but the innermost. -/
def step (stack : List Bracket) (ch : Char) : Option (List Bracket) :=
  match opened? ch, closed? ch, stack with
  | some bracket, _, _ => some (bracket :: stack)
  | none, none, _ => some stack
  | none, some _, [] => none
  | none, some bracket, innermost :: rest => if innermost = bracket then some rest else none

end Bracket

/-- All brackets of a text are properly nested and closed. -/
def Balanced (text : String) : Prop :=
  text.toList.foldlM Bracket.step [] = some []

instance (text : String) : Decidable (Balanced text) :=
  inferInstanceAs (Decidable (_ = _))

/-- A text that leaves the open brackets as they are. -/
def Neutral (text : List Char) : Prop :=
  ∀ stack, text.foldlM Bracket.step stack = some stack

/-- A word without brackets. -/
def BracketFree (word : String) : Prop :=
  ∀ ch ∈ word.toList, ch ∉ brackets

instance (word : String) : Decidable (BracketFree word) :=
  decidable_of_iff (word.toList.all (fun ch => !brackets.contains ch) = true)
    (by simp [BracketFree])

namespace Bracket

/-- A character that is no bracket leaves the open brackets as they are. -/
theorem step_of_notMem {ch : Char} (free : ch ∉ brackets)
    (stack : List Bracket) : step stack ch = some stack := by
  simp only [brackets, List.mem_cons, List.not_mem_nil, or_false, not_or] at free
  obtain ⟨roundOpen, roundClose, squareOpen, squareClose, curlyOpen, curlyClose⟩ := free
  have opensNone : opened? ch = none := by
    unfold opened?
    split <;> first | contradiction | rfl
  have closesNone : closed? ch = none := by
    unfold closed?
    split <;> first | contradiction | rfl
  simp only [step, opensNone, closesNone]

/-- Brackets further out do not matter. -/
theorem step_append {stack after : List Bracket} {ch : Char} (below : List Bracket)
    (stepped : step stack ch = some after) : step (stack ++ below) ch = some (after ++ below) := by
  unfold step at stepped ⊢
  cases opens : opened? ch with
  | some bracket =>
    simp only [opens, Option.some.injEq] at stepped
    rw [← stepped, List.cons_append]
  | none =>
    cases closes : closed? ch with
    | none =>
      simp only [opens, closes, Option.some.injEq] at stepped
      rw [stepped]
    | some bracket =>
      cases stack with
      | nil => simp [opens, closes] at stepped
      | cons innermost rest =>
        simp only [opens, closes, Option.ite_none_right_eq_some, Option.some.injEq] at stepped
        obtain ⟨same, rfl⟩ := stepped
        simp [same]

/-- A text that is read on a stack of open brackets is read in the same way with more brackets open
further out. -/
theorem foldlM_append {text : List Char} {stack after : List Bracket} (below : List Bracket)
    (read : text.foldlM step stack = some after) :
    text.foldlM step (stack ++ below) = some (after ++ below) := by
  induction text generalizing stack with
  | nil => simp_all
  | cons ch rest ih =>
    rw [List.foldlM_cons, Option.bind_eq_bind, Option.bind_eq_some_iff] at read
    obtain ⟨next, stepped, read⟩ := read
    rw [List.foldlM_cons, step_append below stepped]
    exact ih read

end Bracket

namespace Neutral

/-- The empty text is neutral. -/
theorem nil : Neutral [] :=
  fun _ => rfl

/-- Two neutral texts one behind the other are neutral together. -/
theorem append {left right : List Char} (first : Neutral left) (second : Neutral right) :
    Neutral (left ++ right) := by
  intro stack
  rw [List.foldlM_append, first stack]
  exact second stack

/-- A character that is no bracket may stand in front of a neutral text. -/
theorem cons {ch : Char} {text : List Char} (free : ch ∉ brackets)
    (neutral : Neutral text) : Neutral (ch :: text) := by
  intro stack
  rw [List.foldlM_cons, Bracket.step_of_notMem free]
  exact neutral stack

/-- Between two brackets of one kind. -/
theorem enclose {opening closing : Char} {inner after : List Char} (bracket : Bracket)
    (opens : ∀ stack, Bracket.step stack opening = some (bracket :: stack))
    (closes : ∀ stack, Bracket.step (bracket :: stack) closing = some stack)
    (between : Neutral inner) (back : Neutral after) :
    Neutral (opening :: (inner ++ closing :: after)) := by
  intro stack
  rw [List.foldlM_cons, opens stack]
  change (inner ++ closing :: after).foldlM Bracket.step (bracket :: stack) = some stack
  rw [List.foldlM_append, between (bracket :: stack)]
  change (closing :: after).foldlM Bracket.step (bracket :: stack) = some stack
  rw [List.foldlM_cons, closes stack]
  exact back stack

end Neutral

/-- A word without brackets is neutral. -/
theorem BracketFree.neutral {word : String} (free : BracketFree word) : Neutral word.toList := by
  unfold BracketFree at free
  generalize word.toList = chars at free ⊢
  induction chars with
  | nil => exact .nil
  | cons ch rest ih =>
    obtain ⟨first, later⟩ := List.forall_mem_cons.1 free
    exact .cons first (ih later)

/-- Words without brackets are joined to one without brackets. -/
theorem BracketFree.append {left right : String} (first : BracketFree left)
    (second : BracketFree right) : BracketFree (left ++ right) := by
  unfold BracketFree
  rw [String.toList_append]
  exact List.forall_mem_append.2 ⟨first, second⟩

/-- A mark is no bracket. -/
theorem isMark_notMem {ch : Char} (mark : isMark ch = true) : ch ∉ brackets := by
  simp only [isMark, Bool.and_eq_true, Bool.not_eq_true'] at mark
  simpa using mark.1.2

/-- What is woven from neutral pieces is neutral. -/
theorem Woven.neutral {place : Place} {text : List Char}
    (woven : Woven (fun _ piece => Neutral piece.toList) place text) : Neutral text := by
  induction woven with
  | empty => exact .nil
  | piece neutral => exact neutral
  | mark ch mark _ _ first second => exact first.append (second.cons (isMark_notMem mark))
  | round _ _ _ front between back =>
    exact front.append (.enclose .round (fun _ => rfl) (fun _ => rfl) between back)
  | square _ _ _ front between back =>
    exact front.append (.enclose .square (fun _ => rfl) (fun _ => rfl) between back)
  | curly _ _ _ front between back =>
    exact front.append (.enclose .curly (fun _ => rfl) (fun _ => rfl) between back)
  | lineEnd _ _ front back => exact front.append (back.cons (by decide))

/-! ## Pieces without brackets -/

/-- Digits are no brackets. -/
theorem BracketFree.of_digits {word : String} (digits : AllChars Char.isDigit word) :
    BracketFree word := by
  have others : brackets.all (fun ch => !ch.isDigit) = true := by decide
  intro ch inside listed
  have other := List.all_eq_true.1 others ch listed
  rw [digits ch inside] at other
  cases other

/-- A number in decimal digits has no brackets. -/
theorem bracketFree_toString (n : Nat) : BracketFree (toString n) :=
  .of_digits (allDigits_toString n)

/-- No word of the language has brackets. -/
theorem Glsl.LanguageWord.bracketFree {word : String} (fixed : LanguageWord word) :
    BracketFree word := by
  refine fixed.induct (fun base => ?_) (by decide +kernel) (by decide) (by decide)
  unfold BaseType.spelling
  split <;> decide

/-- Whatever a text is woven from is neutral, given words without brackets. -/
theorem neutralVocabulary : Vocabulary BracketFree fun _ piece => Neutral piece.toList where
  word text listed _ := by
    have free : ∀ text ∈ commonWords, BracketFree text := by decide +kernel
    exact (free text listed).neutral
  language _ fixed _ := fixed.bracketFree.neutral
  numeral _ digits _ := (BracketFree.of_digits digits).neutral
  passing text listed := by
    have free : ∀ text ∈ ["in", "inout", "out"], BracketFree text := by decide
    exact (free text listed).neutral
  copied _ free _ := free.neutral
  interface text free start listed _ := by
    have starts : ∀ start ∈ ["attr_", "var_"], BracketFree start := by decide
    exact ((starts start listed).append free).neutral
  aliases base needed n _ := by
    have bases : ∀ base ∈ aliasBases, BracketFree base := by decide +kernel
    exact ((bases base needed).append (bracketFree_toString n)).neutral
  texture stage unit _ := by
    have front : BracketFree (stage.word ++ "Texture") := by cases stage <;> decide
    exact (front.append (bracketFree_toString unit)).neutral
  color generation several slot _ := by
    have number := bracketFree_toString slot
    cases generation <;> cases several
    · exact (by decide : BracketFree "gl_FragColor").neutral
    · have array : BracketFree "gl_FragData" := by decide
      rw [toList_colorVariable_several]
      exact array.neutral.append
        (.enclose .square (fun _ => rfl) (fun _ => rfl) number.neutral .nil)
    · exact (by decide : BracketFree "out_FragColor0").neutral
    · have front : BracketFree "out_FragColor" := by decide
      exact (front.append number).neutral

/-- All phrases that a program of the profile is put together from are neutral. -/
theorem Profile.neutralPhrases (profile : Profile) :
    profile.Phrases fun _ piece => Neutral piece.toList where
  preamble := by
    have fixed {chars : List Char} (read : chars.foldlM Bracket.step [] = some []) :
        Neutral (String.ofList chars).toList := by
      rw [String.toList_ofList]
      exact fun stack => Bracket.foldlM_append stack read
    cases profile.dialect
    all_goals
      repeat refine List.forall_mem_cons.2 ⟨fixed (by decide), ?_⟩
      exact List.forall_mem_nil _
  qualifier qualifier _ := by
    have free : BracketFree qualifier.text := by cases qualifier <;> decide
    exact free.neutral
  direction _ word listed := by
    have free : ∀ word ∈ ["layout", "inout", "out"], BracketFree word := by decide
    exact (free word listed).neutral
  discard _ := (by decide : BracketFree "discard").neutral

/-! ## Texts and expressions -/

/-- The brackets of every text are balanced where the strings of the shader have none. So are those
of every expression, under every expected type, in every context and with any choice of aliases:
where an expression is faulty the brackets around the fault are still closed. -/
theorem brackets_balanced {shader : Shader} (free : ∀ word ∈ shader.tokens, BracketFree word) :
    (∀ profile entryName output, generate shader profile entryName = .ok output →
      Balanced output.text) ∧
    ∀ (c : Context) (hint : Option Ty) (e : Expr) (tokens : List String) (names : Renaming),
      Site.BelongsTo shader ⟨hint, e⟩ → Renaming.ofTokens tokens = .ok names →
      Balanced ((e.lower c hint).text names) := by
  constructor
  · intro profile entryName output generated
    obtain ⟨entry, names, run⟩ := generate_eq_ok_iff.1 generated
    have woven := neutralVocabulary.woven_program profile.neutralPhrases run.found run.chosen free
    rw [run.text]
    exact woven.neutral []
  · intro c hint e tokens names belongs chosen
    exact (neutralVocabulary.woven_lower chosen free c belongs .outside).neutral []

/-- An element whose index is a product of one factor. -/
def productElement : Expr :=
  let wide : Expr := .identifier "wide" (Ty.ofBase .float)
  .index wide (.ofCall "mul" [wide] (Ty.ofBase .float)) (Ty.ofBase .float)

/-- The element in a declaration that leaves no trace, in front of a conditional store. -/
def unusedElement : Shader :=
  let wide : Expr := .identifier "wide" (Ty.ofBase .float)
  let clamped : Expr := .ofCall "saturate" [wide] (Ty.ofBase .float)
  [.function ⟨"main", Ty.ofBase .void, none, []⟩
    [.declare ⟨"unused", Ty.ofBase .texture, none, none, [productElement]⟩,
    .branch (.identifier "lit" (Ty.ofBase .bool))
      [.evaluate (.binary .assign wide clamped (Ty.ofBase .float))] none]]

/-- The text with the branch is balanced, and so is the element with nothing in place of its
index. -/
theorem unusedElement_balanced :
    let c := Context.ofEntry [] ⟨.mobileA, .legacy, .vertex⟩
      ⟨⟨"main", Ty.ofBase .void, none, []⟩, []⟩
    ∃ output, generate unusedElement ⟨.mobileA, .legacy, .vertex⟩ "main" = .ok output ∧
      Balanced output.text ∧ (productElement.lower c none).faults = [.arity "mul" 2 1] ∧
      (productElement.lower c none).text firstAliases = "wide[]" ∧
      Balanced ((productElement.lower c none).text firstAliases) := by
  intro c
  have free : ∀ word ∈ Shader.tokens unusedElement, BracketFree word := by decide +kernel
  have generated : generate unusedElement ⟨.mobileA, .legacy, .vertex⟩ "main" = .ok _ := rfl
  have belongs : Site.BelongsTo unusedElement ⟨none, productElement⟩ :=
    ⟨List.IsPrefix.subset ⟨_, rfl⟩, by rintro _ ⟨⟩⟩
  obtain ⟨texts, expressions⟩ := brackets_balanced free
  exact ⟨_, generated, texts _ _ _ generated, rfl, by decide +kernel,
    expressions c none productElement [] firstAliases belongs rfl⟩

end GlslText
