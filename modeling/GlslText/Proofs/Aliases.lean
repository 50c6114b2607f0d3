import GlslText.Proofs.Generation
import GlslText.Proofs.WrittenNames

/-!
# Aliases

Each of the words that need one gets an alias that is no token of the shader. A text reads the
aliases only through its names: two choices of aliases that write the names of a program alike
write its code alike.
-/

namespace GlslText

/-! ## The choice of aliases -/

/-- Every helper function has a base that needs an alias. -/
theorem Helper.base_mem_aliasBases (which : Helper) : which.base ∈ aliasBases :=
  List.mem_append_left _ (List.mem_map_of_mem (by cases which <;> decide))

/-- A probe finds the first numbered form that is no token. -/
theorem probe_eq_some_iff {tokens : List String} {base name : String} {start count : Nat} :
    probe tokens base start count = some name ↔
      ∃ n < count, name = numbered base (start + n) ∧ numbered base (start + n) ∉ tokens ∧
        ∀ m < n, numbered base (start + m) ∈ tokens := by
  induction count generalizing start with
  | zero => simp [probe]
  | succ count ih =>
    have shifted (n : Nat) : start + 1 + n = start + (n + 1) := by omega
    by_cases taken : numbered base start ∈ tokens
    · rw [probe, if_pos (List.contains_iff_mem.2 taken), ih]
      simp only [shifted]
      constructor
      · rintro ⟨n, below, named, free, earlier⟩
        refine ⟨n + 1, by omega, named, free, fun m before => ?_⟩
        cases m with
        | zero => exact taken
        | succ m => exact earlier m (by omega)
      · rintro ⟨n, below, named, free, earlier⟩
        cases n with
        | zero => exact absurd taken free
        | succ n => exact ⟨n, by omega, named, free, fun m before => earlier (m + 1) (by omega)⟩
    · rw [probe, if_neg fun found => taken (List.contains_iff_mem.1 found), Option.some.injEq]
      constructor
      · rintro rfl
        exact ⟨0, by omega, rfl, taken, by simp⟩
      · rintro ⟨n, below, named, free, earlier⟩
        cases n with
        | zero => exact named.symm
        | succ n => exact absurd (earlier 0 (by omega)) taken

/-- A probe that finds something finds a numbered form that is no token. -/
theorem probe_eq_some {tokens : List String} {base chosen : String} {start count : Nat}
    (found : probe tokens base start count = some chosen) :
    (∃ n, chosen = numbered base n) ∧ chosen ∉ tokens := by
  obtain ⟨n, -, rfl, free, -⟩ := probe_eq_some_iff.1 found
  exact ⟨⟨start + n, rfl⟩, free⟩

/-- A probe finds nothing exactly when every numbered form it tries is a token. -/
theorem probe_eq_none_iff {tokens : List String} {base : String} {start count : Nat} :
    probe tokens base start count = none ↔ ∀ n < count, numbered base (start + n) ∈ tokens := by
  induction count generalizing start with
  | zero => simp [probe]
  | succ count ih =>
    have shifted (n : Nat) : start + 1 + n = start + (n + 1) := by omega
    by_cases taken : numbered base start ∈ tokens
    · rw [probe, if_pos (List.contains_iff_mem.2 taken), ih]
      constructor
      · intro later n below
        cases n with
        | zero => exact taken
        | succ n => exact shifted n ▸ later n (by omega)
      · intro all n below
        rw [shifted]
        exact all (n + 1) (by omega)
    · rw [probe, if_neg (fun found => taken (List.contains_iff_mem.1 found))]
      constructor
      · intro impossible
        cases impossible
      · intro all
        exact absurd (all 0 (by omega)) taken

/-- A base has an alias exactly when one of the numbered forms that are tried is no token. -/
theorem exists_freshName?_iff {tokens : List String} {base : String} :
    (∃ chosen, freshName? tokens base = some chosen) ↔
      ∃ n < probeCount, numbered base n ∉ tokens := by
  rw [← Option.isSome_iff_exists, ← Option.ne_none_iff_isSome, freshName?, ne_eq,
    probe_eq_none_iff]
  simp

namespace Renaming

/-- Every base gets one entry, with its first free numbered form. -/
theorem choose_eq_ok {tokens bases : List String} {entries : List (String × String)}
    (chosen : choose tokens bases = .ok entries) :
    entries.map Prod.fst = bases ∧
      ∀ entry ∈ entries, freshName? tokens entry.1 = some entry.2 := by
  induction bases generalizing entries with
  | nil =>
    obtain rfl := Except.ok.inj chosen
    exact ⟨rfl, by simp⟩
  | cons base rest ih =>
    rw [choose] at chosen
    split at chosen
    · cases chosen
    rename_i name free
    split at chosen
    · cases chosen
    rename_i later chosenLater
    obtain rfl := Except.ok.inj chosen
    obtain ⟨bases, fresh⟩ := ih chosenLater
    refine ⟨by simp [bases], ?_⟩
    intro entry listed
    rcases List.mem_cons.1 listed with rfl | listed
    · exact free
    · exact fresh entry listed

/-- Aliases can be chosen exactly when each of the bases has one. -/
theorem exists_choose_iff {tokens bases : List String} :
    (∃ entries, choose tokens bases = .ok entries) ↔
      ∀ base ∈ bases, ∃ chosen, freshName? tokens base = some chosen := by
  induction bases with
  | nil => simp [choose]
  | cons base rest ih =>
    rw [List.forall_mem_cons, ← ih, choose]
    cases freshName? tokens base with
    | none => simp
    | some chosen => cases choose tokens rest <;> simp

/-- There are names for a shader exactly when every base has a numbered form that is tried and is
no token. -/
theorem exists_ofTokens_iff {tokens : List String} :
    (∃ names, ofTokens tokens = .ok names) ↔
      ∀ base ∈ aliasBases, ∃ n < probeCount, numbered base n ∉ tokens := by
  simp only [← exists_freshName?_iff, ← exists_choose_iff]
  rw [ofTokens]
  cases choose tokens aliasBases <;> simp

/-- A reserved word is written as its alias. -/
theorem source_of_reserved {names : Renaming} {word : String} (reserved : word ∈ reservedWords) :
    names.source word = names.aliasOf word := by
  simp [source, reserved]

section Chosen

variable {tokens : List String} {names : Renaming} (chosen : ofTokens tokens = .ok names)

include chosen

/-- The entries are those of the words that need an alias, in their order, each with the fresh name
found for it. -/
theorem entries_ofTokens :
    names.entries.map Prod.fst = aliasBases ∧
      ∀ entry ∈ names.entries, freshName? tokens entry.1 = some entry.2 := by
  unfold ofTokens at chosen
  split at chosen
  · cases chosen
  rename_i entries chosenEntries
  obtain rfl := Except.ok.inj chosen
  exact choose_eq_ok chosenEntries

/-- There are as many aliases as words that need one. -/
theorem length_aliases : names.aliases.length = aliasBases.length := by
  rw [aliases, ← (entries_ofTokens chosen).1, List.length_map, List.length_map]

/-- No alias is a token. -/
theorem notMem_tokens_of_mem_aliases {word : String} (isAlias : word ∈ names.aliases) :
    word ∉ tokens := by
  obtain ⟨entry, listed, rfl⟩ := List.mem_map.1 isAlias
  exact (probe_eq_some ((entries_ofTokens chosen).2 entry listed)).2

/-- An entry holds the alias of its base. -/
theorem aliasOf_of_mem_entries {entry : String × String} (listed : entry ∈ names.entries) :
    names.aliasOf entry.1 = entry.2 := by
  have fresh := (entries_ofTokens chosen).2
  cases found : names.entries.lookup entry.1 with
  | none => exact absurd (List.lookup_eq_none_iff.1 found _ listed) (by simp)
  | some name =>
    obtain ⟨front, back, split, -⟩ := List.lookup_eq_some_iff.1 found
    have first := fresh (entry.1, name) (by simp [split])
    have isAlias : names.aliasOf entry.1 = name := by simp [aliasOf, found]
    rw [isAlias]
    exact Option.some.inj (first.symm.trans (fresh entry listed))

/-- The alias of a word that needs one is among the aliases and is a numbered form of the word. -/
theorem aliasOf_mem {base : String} (needed : base ∈ aliasBases) :
    names.aliasOf base ∈ names.aliases ∧ ∃ n, names.aliasOf base = numbered base n := by
  rw [← (entries_ofTokens chosen).1] at needed
  obtain ⟨entry, listed, rfl⟩ := List.mem_map.1 needed
  rw [aliasOf_of_mem_entries chosen listed]
  exact ⟨List.mem_map_of_mem listed, (probe_eq_some ((entries_ofTokens chosen).2 entry listed)).1⟩

/-- The name of a helper function is an alias. -/
theorem helper_mem_aliases (which : Helper) : names.helper which ∈ names.aliases :=
  (aliasOf_mem chosen which.base_mem_aliasBases).1

/-- A reserved word is written as an alias. -/
theorem source_mem_aliases {word : String} (reserved : word ∈ reservedWords) :
    names.source word ∈ names.aliases := by
  rw [source_of_reserved reserved]
  exact (aliasOf_mem chosen (List.mem_append_right _ reserved)).1

end Chosen

end Renaming

/-! ## What a text reads of the aliases -/

/-- Two choices of aliases write the given names alike. -/
def Renaming.AgreeOn (left right : Renaming) (written : List Glsl.Name) : Prop :=
  ∀ name ∈ written, name.text left = name.text right

namespace Renaming.AgreeOn

variable {left right : Renaming}

/-- Agreement on a list is agreement on its first name and on the rest. -/
theorem cons_iff {name : Glsl.Name} {rest : List Glsl.Name} :
    left.AgreeOn right (name :: rest) ↔
      name.text left = name.text right ∧ left.AgreeOn right rest :=
  List.forall_mem_cons

/-- Agreement on two lists joined is agreement on both. -/
theorem append_iff {front back : List Glsl.Name} :
    left.AgreeOn right (front ++ back) ↔ left.AgreeOn right front ∧ left.AgreeOn right back :=
  List.forall_mem_append

/-- Agreement on what the items of a list write is agreement on what each of them writes. -/
theorem flatMap_iff {α : Type} {items : List α} {written : α → List Glsl.Name} :
    left.AgreeOn right (items.flatMap written) ↔
      ∀ item ∈ items, left.AgreeOn right (written item) := by
  simp only [AgreeOn, List.mem_flatMap, forall_exists_index, and_imp]
  exact ⟨fun agree item listed name named => agree name item listed named,
    fun agree name item listed named => agree item listed name named⟩

end Renaming.AgreeOn

namespace Glsl

open Renaming (AgreeOn)
open Renaming.AgreeOn

variable {left right : Renaming}

namespace Term

mutual

/-- A term reads of the aliases only what its names are written as. -/
theorem text_congr : (term : Term) → left.AgreeOn right term.names →
    term.text left = term.text right
  | literal _, _ => rfl
  | named name selection, agree => by
    simp only [text, agree name (by simp [names])]
  | apply callee arguments, agree => by
    obtain ⟨callees, inside⟩ := cons_iff.1 agree
    simp only [text, callees, textList_congr arguments inside]
  | unary op operand, agree => by
    simp only [text, text_congr operand agree]
  | binary op first second, agree => by
    obtain ⟨inFirst, inSecond⟩ := append_iff.1 agree
    simp only [text, text_congr first inFirst, text_congr second inSecond]
  | conditional condition whenTrue whenFalse, agree => by
    obtain ⟨inFront, inFalse⟩ := append_iff.1 agree
    obtain ⟨inCondition, inTrue⟩ := append_iff.1 inFront
    simp only [text, text_congr condition inCondition, text_congr whenTrue inTrue,
      text_congr whenFalse inFalse]
  | select object field, agree => by
    obtain ⟨inObject, fields⟩ := append_iff.1 agree
    simp only [text, text_congr object inObject, fields field (List.mem_singleton_self _)]
  | index array position, agree => by
    obtain ⟨inArray, inPosition⟩ := append_iff.1 agree
    simp only [text, text_congr array inArray, text_congr position inPosition]
  | group inner, agree => by
    simp only [text, text_congr inner agree]
  | product first second, agree => by
    obtain ⟨inFirst, inSecond⟩ := append_iff.1 agree
    simp only [text, text_congr first inFirst, text_congr second inSecond]
  | missing, _ => rfl
  | faulty _ inner, agree => by
    simp only [text, text_congr inner agree]

/-- The list of the arguments of a call reads of the aliases only what its names are written as. -/
theorem textList_congr : (terms : List Term) → left.AgreeOn right (namesAll terms) →
    textList left terms = textList right terms
  | [], _ => rfl
  | term :: rest, agree => by
    obtain ⟨inFirst, inRest⟩ := append_iff.1 agree
    simp only [textList, text_congr term inFirst, textRest_congr rest inRest]

/-- The arguments behind the first, each with a comma in front, read of the aliases only what their
names are written as. -/
theorem textRest_congr : (terms : List Term) → left.AgreeOn right (namesAll terms) →
    textRest left terms = textRest right terms
  | [], _ => rfl
  | term :: rest, agree => by
    obtain ⟨inFirst, inRest⟩ := append_iff.1 agree
    simp only [textRest, text_congr term inFirst, textRest_congr rest inRest]

end

/-- Agreement on the names of each term of a list carries over to the text of the list. -/
theorem textList_congr_of_flatMap {terms : List Term}
    (agree : left.AgreeOn right (terms.flatMap names)) :
    textList left terms = textList right terms :=
  textList_congr terms (namesAll_eq_flatMap terms ▸ agree)

end Term

/-- Something that may be absent is written alike if it is written alike when present. -/
theorem textOf_congr {α : Type} {before after : α → String} {value : Option α}
    (same : ∀ present ∈ value, before present = after present) :
    textOf before value = textOf after value := by
  cases value with
  | none => rfl
  | some present => exact same present rfl

/-- The size of an array reads of the aliases only what its names are written as. -/
theorem Brackets.text_congr {brackets : Brackets}
    (agree : left.AgreeOn right (brackets.terms.flatMap Term.names)) :
    brackets.text left = brackets.text right := by
  have sizes := flatMap_iff.1 agree
  rw [text, text, textOf_congr fun size present =>
    Term.text_congr size (sizes size (Option.mem_toList.2 present))]

/-- An array literal reads of the aliases the name of its element type and the names in its
items. -/
theorem ArrayLiteral.text_congr {literal : ArrayLiteral} (opening closing : String)
    (heads : left.AgreeOn right [literal.element])
    (agree : left.AgreeOn right (literal.terms.flatMap Term.names)) :
    literal.text left opening closing = literal.text right opening closing := by
  rw [terms, List.flatMap_append] at agree
  obtain ⟨inBrackets, inValues⟩ := append_iff.1 agree
  rw [text, text, (cons_iff.1 heads).1, Brackets.text_congr inBrackets,
    Term.textList_congr_of_flatMap inValues]

/-- An initial value reads of the aliases its head names and the names in its terms. -/
theorem Initial.text_congr {initial : Initial} (heads : left.AgreeOn right initial.heads)
    (agree : left.AgreeOn right (initial.terms.flatMap Term.names)) :
    initial.text left = initial.text right := by
  cases initial with
  | value term => exact Term.text_congr term (flatMap_iff.1 agree term (List.mem_singleton_self _))
  | array literal => exact literal.text_congr _ _ heads agree

/-- A declarator reads of the aliases its head names and the names in its terms. -/
theorem Declarator.text_congr {declarator : Declarator}
    (heads : left.AgreeOn right declarator.heads)
    (agree : left.AgreeOn right (declarator.terms.flatMap Term.names)) :
    declarator.text left = declarator.text right := by
  obtain ⟨type, heads⟩ := cons_iff.1 heads
  obtain ⟨name, heads⟩ := cons_iff.1 heads
  rw [terms, List.flatMap_append, List.flatMap_assoc, List.flatMap_assoc] at agree
  obtain ⟨inBrackets, inInitial⟩ := append_iff.1 agree
  have brackets (present) (has : present ∈ declarator.brackets) :
      present.text left = present.text right :=
    Brackets.text_congr (flatMap_iff.1 inBrackets present (Option.mem_toList.2 has))
  have initial (present) (has : present ∈ declarator.initial) :
      " = " ++ present.text left = " = " ++ present.text right := by
    have listed := Option.mem_toList.2 has
    rw [Initial.text_congr (flatMap_iff.1 heads present listed)
      (flatMap_iff.1 inInitial present listed)]
  rw [text, text, type, name, textOf_congr brackets, textOf_congr initial]

/-- The head of a function reads of the aliases its head names and the names in its terms. -/
theorem Prototype.text_congr {prototype : Prototype} (heads : left.AgreeOn right prototype.heads)
    (agree : left.AgreeOn right (prototype.terms.flatMap Term.names)) :
    prototype.text left = prototype.text right := by
  obtain ⟨result, heads⟩ := cons_iff.1 heads
  obtain ⟨name, heads⟩ := cons_iff.1 heads
  rw [terms, List.flatMap_assoc] at agree
  have parameters : prototype.parameters.map (Parameter.text left) =
      prototype.parameters.map (Parameter.text right) := by
    refine List.map_congr_left fun parameter listed => ?_
    rw [Parameter.text, Parameter.text, Declarator.text_congr
      (flatMap_iff.1 heads parameter listed) (flatMap_iff.1 agree parameter listed)]
  rw [text, text, result, name, parameters]

/-- The replacement of a macro reads of the aliases its head names and the names in its terms. -/
theorem Replacement.text_congr {replacement : Replacement}
    (heads : left.AgreeOn right replacement.heads)
    (agree : left.AgreeOn right (replacement.terms.flatMap Term.names)) :
    replacement.text left = replacement.text right := by
  cases replacement with
  | array literal => rw [text, text, literal.text_congr _ _ heads agree]
  | name target => exact (cons_iff.1 heads).1

/-- An effect reads of the aliases only the names in its terms. -/
theorem Effect.text_congr {done : Effect}
    (agree : left.AgreeOn right (done.terms.flatMap Term.names)) :
    done.text left = done.text right := by
  have terms := flatMap_iff.1 agree
  cases done with
  | store op place value =>
    rw [text, text, Term.text_congr place (terms place (by simp [Effect.terms])),
      Term.text_congr value (terms value (by simp [Effect.terms]))]
  | evaluate term => exact Term.text_congr term (terms term (by simp [Effect.terms]))

/-- The head of a loop reads of the aliases the names that its three parts write. -/
theorem loopHead_congr {start : Option Declarator} {condition : Option Term} {step : Option Effect}
    (heads : left.AgreeOn right (start.toList.flatMap Declarator.heads))
    (inStart : left.AgreeOn right ((start.toList.flatMap Declarator.terms).flatMap Term.names))
    (inCondition : left.AgreeOn right (condition.toList.flatMap Term.names))
    (inStep : left.AgreeOn right ((step.toList.flatMap Effect.terms).flatMap Term.names)) :
    loopHead left start condition step = loopHead right start condition step := by
  rw [List.flatMap_assoc] at inStart inStep
  have starts (present) (has : present ∈ start) : present.text left = present.text right :=
    have listed := Option.mem_toList.2 has
    Declarator.text_congr (flatMap_iff.1 heads present listed)
      (flatMap_iff.1 inStart present listed)
  have conditions (present) (has : present ∈ condition) :
      present.text left = present.text right :=
    Term.text_congr present (flatMap_iff.1 inCondition present (Option.mem_toList.2 has))
  have steps (present) (has : present ∈ step) : present.text left = present.text right :=
    Effect.text_congr (flatMap_iff.1 inStep present (Option.mem_toList.2 has))
  rw [loopHead, loopHead, textOf_congr starts, textOf_congr conditions, textOf_congr steps]

/-- Declarators are written alike on the lines that are made of them. -/
theorem Declarator.map_text_congr {declarators : List Declarator} (line : String → Line)
    (heads : left.AgreeOn right (declarators.flatMap Declarator.heads))
    (agree : left.AgreeOn right ((declarators.flatMap Declarator.terms).flatMap Term.names)) :
    declarators.map (fun declarator => line (declarator.text left)) =
      declarators.map fun declarator => line (declarator.text right) := by
  rw [List.flatMap_assoc] at agree
  refine List.map_congr_left fun declarator listed => ?_
  rw [Declarator.text_congr (flatMap_iff.1 heads declarator listed)
    (flatMap_iff.1 agree declarator listed)]

namespace Stmt

mutual

/-- The lines of a statement read of the aliases its head names and the names in its terms. -/
theorem lines_congr (depth : Nat) : (stmt : Stmt) → left.AgreeOn right stmt.heads →
    left.AgreeOn right (stmt.terms.flatMap Term.names) →
    stmt.lines left depth = stmt.lines right depth
  | declare storage declarator, heads, agree => by
    rw [lines, lines, Declarator.text_congr heads agree]
  | sampler isLow base name, heads, _ => by
    rw [lines, lines, (cons_iff.1 heads).1]
  | define name replacement, heads, agree => by
    obtain ⟨defined, heads⟩ := cons_iff.1 heads
    rw [lines, lines, defined, Replacement.text_congr heads agree]
  | struct name fields, heads, agree => by
    obtain ⟨defined, heads⟩ := cons_iff.1 heads
    rw [lines, lines, structLines, structLines, defined,
      Declarator.map_text_congr (fun text => ⟨depth + 1, text ++ ";"⟩) heads agree]
  | function prototype body, heads, agree => by
    rw [terms, List.flatMap_append] at agree
    obtain ⟨headsFront, headsBody⟩ := append_iff.1 heads
    obtain ⟨inFront, inBody⟩ := append_iff.1 agree
    rw [lines, lines, Prototype.text_congr headsFront inFront,
      linesAll_congr (depth + 1) body headsBody inBody]
  | branch condition whenTrue none, heads, agree => by
    obtain ⟨inCondition, inTrue⟩ := append_iff.1 agree
    rw [lines, lines, Term.text_congr condition inCondition,
      linesAll_congr (depth + 1) whenTrue heads inTrue]
  | branch condition whenTrue (some whenFalse), heads, agree => by
    obtain ⟨headsTrue, headsFalse⟩ := append_iff.1 heads
    rw [terms, List.flatMap_cons, List.flatMap_append] at agree
    obtain ⟨inCondition, inBranches⟩ := append_iff.1 agree
    obtain ⟨inTrue, inFalse⟩ := append_iff.1 inBranches
    rw [lines, lines, Term.text_congr condition inCondition,
      linesAll_congr (depth + 1) whenTrue headsTrue inTrue,
      linesAll_congr (depth + 1) whenFalse headsFalse inFalse]
  | loop start condition step body, heads, agree => by
    rw [terms, List.flatMap_append, List.flatMap_append, List.flatMap_append] at agree
    obtain ⟨headsFront, headsBody⟩ := append_iff.1 heads
    obtain ⟨inHead, inBody⟩ := append_iff.1 agree
    obtain ⟨inFront, inStep⟩ := append_iff.1 inHead
    obtain ⟨inStart, inCondition⟩ := append_iff.1 inFront
    rw [lines, lines, loopHead_congr headsFront inStart inCondition inStep,
      linesAll_congr (depth + 1) body headsBody inBody]
  | block body, heads, agree => by
    rw [lines, lines, linesAll_congr (depth + 1) body heads agree]
  | result none, _, _ => by rw [lines, lines]
  | result (some value), _, agree => by
    rw [lines, lines, Term.text_congr value (flatMap_iff.1 agree value (by simp [terms]))]
  | discard, _, _ => by rw [lines, lines]
  | leave, _, _ => by rw [lines, lines]
  | next, _, _ => by rw [lines, lines]
  | effect done, _, agree => by rw [lines, lines, Effect.text_congr agree]
  | faulty _, _, _ => by rw [lines, lines]

/-- The lines of several statements read of the aliases their head names and the names in their
terms. -/
theorem linesAll_congr (depth : Nat) : (stmts : List Stmt) → left.AgreeOn right (headsAll stmts) →
    left.AgreeOn right ((termsAll stmts).flatMap Term.names) →
    linesAll left depth stmts = linesAll right depth stmts
  | [], _, _ => rfl
  | stmt :: rest, heads, agree => by
    rw [termsAll, List.flatMap_append] at agree
    obtain ⟨headsFirst, headsRest⟩ := append_iff.1 heads
    obtain ⟨inFirst, inRest⟩ := append_iff.1 agree
    rw [linesAll, linesAll, lines_congr depth stmt headsFirst inFirst,
      linesAll_congr depth rest headsRest inRest]

end

end Stmt

/-- The code of a program reads the aliases only through its names. -/
theorem Program.codeLines_congr {program : Program}
    (agree : left.AgreeOn right program.codeNames) :
    program.codeLines left = program.codeLines right := by
  rw [codeNames, heads, terms, List.flatMap_append, List.flatMap_append] at agree
  obtain ⟨heads, inTerms⟩ := append_iff.1 agree
  obtain ⟨headsFront, headsBody⟩ := append_iff.1 heads
  obtain ⟨headsGlobals, headsProperties⟩ := append_iff.1 headsFront
  obtain ⟨inFront, inBody⟩ := append_iff.1 inTerms
  obtain ⟨inGlobals, inProperties⟩ := append_iff.1 inFront
  have properties : program.propertyLines left = program.propertyLines right := by
    rw [propertyLines, propertyLines,
      Declarator.map_text_congr (fun text => ⟨1, text ++ ";"⟩) headsProperties inProperties]
  rw [codeLines, codeLines, mainLines, mainLines, properties,
    Stmt.linesAll_congr 0 program.globals headsGlobals inGlobals,
    Stmt.linesAll_congr 1 program.body headsBody inBody]

end Glsl

end GlslText
