import GlslText.Proofs.ColorOutputs
import GlslText.Proofs.Placement

/-!
# The result of an entry without an output structure

A fragment entry that returns no structure names a single colour output by its own semantic. The
interface declares that output, but several colour outputs only show by a structure, so what the
entry returns is always stored in the variable of a single output, which is the first one. The
two agree exactly when the semantic names the first output.
-/

namespace GlslText

/-- A variable stands for the colour output of the given number. The modern generation has a
variable for each output. In the legacy generation the single variable stands for the first output
alone. -/
def StandsForOutput (generation : Generation) (n : Nat) (variableName : String) : Prop :=
  match generation with
  | .modern => variableName = "out_FragColor" ++ toString n
  | .legacy => n ≠ 0 → variableName ≠ "gl_FragColor"

instance (generation : Generation) (n : Nat) (variableName : String) :
    Decidable (StandsForOutput generation n variableName) :=
  match generation with
  | .modern => inferInstanceAs (Decidable (variableName = _))
  | .legacy => inferInstanceAs (Decidable (n ≠ 0 → variableName ≠ _))

/-- The variable of a single output stands for the first one only. -/
theorem standsForOutput_single_iff (generation : Generation) (n : Nat) :
    StandsForOutput generation n (colorVariable generation false n) ↔ n = 0 := by
  cases generation with
  | legacy => simp [StandsForOutput, colorVariable]
  | modern =>
    have first : colorVariable .modern false n = "out_FragColor" ++ toString 0 := rfl
    rw [StandsForOutput, first, String.append_right_inj]
    exact ⟨fun same => (toString_injective same).symm, fun same => by rw [same]⟩

/-- An assignment stands on a line of its own. -/
theorem Glsl.Stmt.lines_assign (names : Renaming) (depth : Nat) (left right : Glsl.Term) :
    (Glsl.Stmt.effect (.store .assign left right)).lines names depth =
      [⟨depth, left.text names ++ " = " ++ right.text names ++ ";"⟩] := by
  have sign : " = " = " " ++ BinaryOp.assign.sign ++ " " := rfl
  simp only [Glsl.Stmt.lines, Glsl.Effect.text, sign, String.append_assoc]

section Single

variable {c : Context} {slot : Slot} (noStruct : c.interface.output = none)
  (target : c.entry.semantic.bind Slot.ofSemantic? = some slot)

include target in
/-- The semantic of the entry names a variable to store the result in. -/
theorem Context.returnVariable?_eq_color :
    c.returnVariable? = some (.named (c.colorName slot) c.entry.result.base.narrowing) := by
  obtain ⟨semantic, named, found⟩ := Option.bind_eq_some_iff.1 target
  simp only [returnVariable?, named, Option.bind_eq_bind, Option.bind_some,
    builtIn?_eq_none_of_slot found, found]
  rfl

include noStruct target in
/-- The entry writes the output of its own semantic and no other. -/
theorem Context.writes_iff_eq_slot {n : Nat} : c.Writes n ↔ n = slot.index := by
  rw [← mem_slots, Interface.slots, noStruct, target]
  simp

include noStruct target in
/-- A value that the entry returns is stored in its variable. -/
theorem Statement.lower_result_of_inMain {scope : Scope} (inMain : scope.inMain = true)
    (value : Expr) :
    (Statement.result (some value)).lower c scope =
      [.effect (.store .assign (.named (c.colorName slot) c.entry.result.base.narrowing)
        (value.lower c (some c.entry.result))), .result none] := by
  have noOutput : c.interface.roleOf value.ty ≠ .output := by
    rw [Interface.roleOf]
    cases value.ty.structName with
    | none => simp
    | some name =>
      simp only [Interface.role, noStruct, Option.any_none, Bool.false_eq_true, if_false]
      split <;> simp
  simp only [Statement.lower, Expr.lowerResult, inMain, if_true, noOutput, if_false,
    Context.returnVariable?_eq_color target]

end Single

/-- Without an output structure there are never several colour outputs. -/
theorem Context.colorName_of_noStruct {shader : Shader} {profile : Profile} {entry : Function}
    (noStruct : (Interface.ofEntry shader entry).output = none) (slot : Slot) :
    (ofEntry shader profile entry).colorName slot = .color profile.generation false slot.index := by
  have single : (ofEntry shader profile entry).features.contains .multipleTargets = false := by
    refine Bool.eq_false_iff.2 fun several => ?_
    have shown := (Shader.mem_features _ _ _).1 (List.contains_iff_mem.1 several)
    simp [Feature.shows, Feature.words, noStruct] at shown
  rw [colorName, single]
  rfl

/-- For a fragment entry that returns no structure of the shader and names a colour output by its
own semantic, every value that it returns is stored in the variable of a single output, on a line
of its own with a return behind it. A modern text declares the output of the semantic, and those
that are read, once each and no others. The variable stands for the output of the semantic exactly
when that is the first one, and in a modern text it is declared exactly when that or a read names
the first one. -/
theorem entry_result_stored {shader : Shader} {profile : Profile} {entryName : String}
    {output : Output} {entry : Function} {slot : Slot}
    (generated : generate shader profile entryName = .ok output)
    (fragment : profile.stage = .fragment) (found : shader.function? entryName = some entry)
    (noStruct : (Interface.ofEntry shader entry).output = none)
    (target : entry.semantic.bind Slot.ofSemantic? = some slot) :
    ∃ names, Renaming.ofTokens shader.tokens = .ok names ∧
      let c := Context.ofEntry shader profile entry
      let stored := colorVariable profile.generation false slot.index
      let declarations (n : Nat) : Nat :=
        let interface := (c.program.interfaceLines names).map Line.text
        interface.count (ColorOutput.text ⟨n, false⟩) + interface.count (ColorOutput.text ⟨n, true⟩)
      output.text = Line.renderAll (c.program.lines names) ∧
      (∀ value scope depth,
        (Statement.result (some value)).Placed c scope depth c.mainScope 1 entry.body →
        [⟨depth, stored ++ entry.result.base.narrowing ++ " = "
          ++ (value.lower c (some entry.result)).text names ++ ";"⟩, ⟨depth, "return;"⟩] <:+:
          c.program.lines names) ∧
      (StandsForOutput profile.generation slot.index stored ↔ slot.index = 0) ∧
      (profile.generation = .modern →
        c.program.interfaceLines names <:+: c.program.lines names ∧
        ∀ n, (n = slot.index ∨ shader.Fetches n → declarations n = 1) ∧
          (n ≠ slot.index → ¬shader.Fetches n → declarations n = 0)) := by
  obtain ⟨other, names, run⟩ := generate_eq_ok_iff.1 generated
  obtain rfl := Option.some.inj (run.found.symm.trans found)
  refine ⟨names, run.chosen, ?_⟩
  intro c stored declarations
  refine ⟨run.text, ?_, standsForOutput_single_iff _ _, fun modern => ⟨?_, fun n => ?_⟩⟩
  · intro value scope depth placed
    have inMain : scope.inMain = true := placed.inMain
    have lines := Context.lines_of_entry placed names
    rw [Statement.lower_result_of_inMain noStruct target inMain,
      Context.colorName_of_noStruct noStruct] at lines
    rw [Glsl.Stmt.linesAll, Glsl.Stmt.lines_assign] at lines
    exact lines
  · obtain ⟨front, back, split⟩ := Glsl.Program.interface_lines names c.program
    exact ⟨front, back, split.symm⟩
  · have faultless : shader.fetchFaults = [] :=
      Context.fetchFaults_eq_nil fragment modern run.faultless
    have writes : c.Writes n ↔ n = slot.index := Context.writes_iff_eq_slot noStruct target
    have declared (isFetched : Bool) :
        ⟨n, isFetched⟩ ∈ c.program.outputs ↔
          (n = slot.index ∨ shader.Fetches n) ∧ (isFetched = true ↔ shader.Fetches n) := by
      rw [← writes]
      exact Context.mem_outputs fragment modern faultless
    have count (isFetched : Bool) :
        ((c.program.interfaceLines names).map Line.text).count (ColorOutput.text ⟨n, isFetched⟩) =
          if ⟨n, isFetched⟩ ∈ c.program.outputs then 1 else 0 :=
      Context.count_declaration fragment modern names ⟨n, isFetched⟩
    simp only [declarations, count]
    by_cases fetched : shader.Fetches n
    · simp [declared, fetched]
    · simp [declared, fetched]

/-- A fragment entry that returns one of two colours by the given semantic. -/
def earlyResult (semantic : String) : Shader :=
  let vec4 := Ty.ofBase (.vector (.float .full) .four)
  let color (n : Int) : Expr := .construct [.literal (.int n) (Ty.ofBase .int)] vec4
  [.function ⟨"main", vec4, some semantic, []⟩
    [.branch (.literal (.bool true) boolTy) [.result (some (color 0))] none,
    .result (some (color 1))]]

/-- A result inside a branch is stored in the first colour output, and the entry is left behind
it. -/
theorem earlyResult_stored :
    ∃ output lines, generate (earlyResult "SV_Target") ⟨.mobileA, .modern, .fragment⟩ "main" =
        .ok output ∧
      output.text = Line.renderAll lines ∧
      [⟨2, "out_FragColor0 = vec4(0);"⟩, ⟨2, "return;"⟩] <:+: lines ∧
      StandsForOutput .modern 0 "out_FragColor0" := by
  have generated :
      generate (earlyResult "SV_Target") ⟨.mobileA, .modern, .fragment⟩ "main" = .ok _ := rfl
  have target : (some "SV_Target").bind Slot.ofSemantic? = some .canonical := by decide
  obtain ⟨names, chosen, text, results, stands, -⟩ :=
    entry_result_stored generated rfl rfl rfl target
  refine ⟨_, _, generated, text, ?_, stands.2 rfl⟩
  exact results (.construct [.literal (.int 0) (Ty.ofBase .int)] _) _ 2
    (.inside List.mem_cons_self List.mem_cons_self (.here List.mem_cons_self))

/-- The third colour output is declared, and what the entry returns is stored in the first. -/
theorem earlyResult_misplaced :
    generate (earlyResult "SV_TARGET2") ⟨.desktopOther, .modern, .fragment⟩ "main" =
      .ok ⟨Line.renderAll
        ((Profile.preamble ⟨.desktopOther, .modern, .fragment⟩ []).map (Line.mk 0) ++
          [⟨0, "layout (location = 2) out vec4 out_FragColor2;"⟩, .blank, ⟨0, "void main()"⟩,
            ⟨0, "\x7b"⟩, ⟨1, "if (true) \x7b"⟩, ⟨2, "out_FragColor0 = vec4(0);"⟩,
            ⟨2, "return;"⟩, ⟨1, "\x7d"⟩, ⟨1, "out_FragColor0 = vec4(1);"⟩, ⟨1, "return;"⟩,
            ⟨0, "\x7d"⟩]),
        .glsl330, []⟩ ∧
      ¬StandsForOutput .modern 2 "out_FragColor0" := by
  exact ⟨by decide +kernel, by decide⟩

end GlslText
