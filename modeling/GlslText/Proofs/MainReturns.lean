import GlslText.Proofs.Nesting
import GlslText.Proofs.WrittenNames

/-!
# Return statements of `main`

`main` returns nothing: a stage structure that the entry returns has been stored field by field, and
any other value is stored in the variable that the semantic of the entry names, if it names one. A
structure that the entry both takes and returns counts as taken alone. A value of it is then not
recognised as the result of the stage, and is returned from `main` as it stands.
-/

namespace GlslText

/-- Whether the semantic of a function names a built-in variable or a colour output. -/
def Signature.isBound (signature : Signature) : Bool :=
  signature.semantic.any fun semantic =>
    (builtIn? semantic).isSome || (Slot.ofSemantic? semantic).isSome

namespace Glsl.Stmt

mutual

/-- What the return statements of a statement return, at any depth. -/
def returned : Stmt → List (Option Term)
  | function _ body => returnedAll body
  | branch _ whenTrue none => returnedAll whenTrue
  | branch _ whenTrue (some whenFalse) => returnedAll whenTrue ++ returnedAll whenFalse
  | loop _ _ _ body => returnedAll body
  | block body => returnedAll body
  | result value => [value]
  | _ => []

/-- What the return statements of several statements return. -/
def returnedAll : List Stmt → List (Option Term)
  | [] => []
  | stmt :: rest => stmt.returned ++ returnedAll rest

end

/-- The values returned by several statements are those of each of them, in their order. -/
theorem returnedAll_eq_flatMap (stmts : List Stmt) :
    returnedAll stmts = stmts.flatMap returned := by
  induction stmts with
  | nil => rfl
  | cons stmt rest ih => rw [returnedAll, ih, List.flatMap_cons]

end Glsl.Stmt

/-! ## Returns of lowered statements -/

section Lowered

variable {c : Context}

/-- What a return statement of the shader returns in the text. Inside `main` a value that is stored
is not returned. -/
def Statement.ownReturns (c : Context) (scope : Scope) : Statement → List (Option Glsl.Term)
  | result none => [none]
  | result (some value) =>
    if scope.inMain ∧ (c.interface.roleOf value.ty = .output ∨ c.entry.isBound) then [none]
    else [some (value.lower c scope.result)]
  | _ => []

/-- A declaration returns nothing. -/
theorem Declaration.returnedAll_lower (scope : Scope) (declaration : Declaration) :
    Glsl.Stmt.returnedAll (declaration.lower c scope) = [] := by
  unfold lower lowerGlobal
  split
  · rfl
  split
  · split
    · split <;> rfl
    · split
      · cases declaration.textureUnit <;> rfl
      · rfl
  · rfl

/-- A returned value is lowered to a return of what the statement returns in the text. -/
theorem Expr.returnedAll_lowerResult (scope : Scope) (value : Expr) :
    Glsl.Stmt.returnedAll (value.lowerResult c scope) =
      (Statement.result (some value)).ownReturns c scope := by
  have bound : c.returnVariable?.isSome = c.entry.isBound := c.isSome_returnVariable?
  unfold lowerResult Statement.ownReturns
  by_cases inMain : scope.inMain = true
  · by_cases isOutput : c.interface.roleOf value.ty = .output
    · simp [inMain, isOutput, Glsl.Stmt.returnedAll, Glsl.Stmt.returned]
    · cases stored : c.returnVariable? with
      | none =>
        rw [stored] at bound
        simp [inMain, isOutput, ← bound, Glsl.Stmt.returnedAll, Glsl.Stmt.returned]
      | some place =>
        rw [stored] at bound
        simp [inMain, isOutput, ← bound, Glsl.Stmt.returnedAll, Glsl.Stmt.returned]
  · simp [inMain, Glsl.Stmt.returnedAll, Glsl.Stmt.returned]

namespace Statement

/-- A statement returns what it returns of its own and what its bodies return. -/
theorem returnedAll_lower (scope : Scope) (s : Statement) :
    Glsl.Stmt.returnedAll (s.lower c scope) = s.ownReturns c scope ++
      (s.bodies c scope).flatMap fun opened =>
        Glsl.Stmt.returnedAll (lowerAll c opened.1 opened.2) := by
  cases s with
  | declare declaration => exact declaration.returnedAll_lower scope
  | struct definition =>
    simp only [lower, Struct.lower]
    split <;> rfl
  | buffer name content =>
    simp only [lower, Declaration.lowerBuffer]
    split <;> rfl
  | function signature body =>
    simp only [lower, ownReturns, bodies]
    split
    · rfl
    · simp [Glsl.Stmt.returnedAll, Glsl.Stmt.returned]
  | branch condition whenTrue whenFalse =>
    cases whenFalse <;>
      simp [lower, ownReturns, bodies, Glsl.Stmt.returnedAll, Glsl.Stmt.returned]
  | loop start condition step body =>
    simp [lower, ownReturns, bodies, Glsl.Stmt.returnedAll, Glsl.Stmt.returned]
  | block body => simp [lower, ownReturns, bodies, Glsl.Stmt.returnedAll, Glsl.Stmt.returned]
  | result value =>
    cases value with
    | none => rfl
    | some value =>
      rw [lower, value.returnedAll_lowerResult]
      exact (List.append_nil _).symm
  | discard =>
    simp only [lower]
    split <;> rfl
  | leave => rfl
  | next => rfl
  | evaluate expr => rfl

/-- The returns in the text of a list of statements are those of the return statements placed in
it. -/
theorem mem_returnedAll_lowerAll {value : Option Glsl.Term} {outer : Scope}
    {statements : List Statement} (level : Nat) :
    value ∈ Glsl.Stmt.returnedAll (lowerAll c outer statements) ↔
      ∃ s scope depth, Placed c s scope depth outer level statements ∧
        value ∈ s.ownReturns c scope := by
  have step (scope : Scope) (statements : List Statement) :
      Glsl.Stmt.returnedAll (lowerAll c scope statements) = statements.flatMap fun s =>
        s.ownReturns c scope ++ (s.bodies c scope).flatMap fun opened =>
          Glsl.Stmt.returnedAll (lowerAll c opened.1 opened.2) := by
    simp only [← returnedAll_lower]
    simp only [lowerAll_eq_flatMap, Glsl.Stmt.returnedAll_eq_flatMap, List.flatMap_assoc]
  exact mem_iff_placed step level

end Statement

end Lowered

/-! ## Returns of `main` -/

/-- The structure that an entry returns is its output unless the entry takes it as well. -/
theorem Interface.roleOf_result_eq_output_iff {shader : Shader} {entry : Function} {name : String}
    {struct : Struct} (named : entry.result.structName = some name)
    (found : shader.struct? name = some struct) :
    (ofEntry shader entry).roleOf entry.result = .output ↔
      ¬∃ struct, (ofEntry shader entry).input = some struct ∧
        (ofEntry shader entry).output = some struct := by
  have output : (ofEntry shader entry).output = some struct := by
    simp [ofEntry, named, found]
  have role : (ofEntry shader entry).role name = .output ↔
      (ofEntry shader entry).input ≠ some struct := by
    rw [← (Shader.mem_of_struct? found).2]
    exact role_eq_output_iff output
  rw [roleOf, named]
  simp [role, output]

/-- The entry takes the structure that it returns, and names no variable by its semantic, exactly
when what it returns is neither recognised as the output of the stage nor stored in a variable. -/
theorem Interface.takesResult_iff {shader : Shader} {entry : Function}
    (stored : (∃ name struct, entry.result.structName = some name ∧
      shader.struct? name = some struct) ∨ entry.isBound = true) :
    ((∃ struct, (ofEntry shader entry).input = some struct ∧
        (ofEntry shader entry).output = some struct) ∧ entry.isBound = false) ↔
      ¬((ofEntry shader entry).roleOf entry.result = .output ∨ entry.isBound = true) := by
  rw [not_or, Bool.not_eq_true]
  refine and_congr_left fun unbound => ?_
  rcases stored with ⟨name, struct, named, found⟩ | bound
  · rw [roleOf_result_eq_output_iff named found, not_not]
  · rw [bound] at unbound
    cases unbound

/-- A value that is neither recognised as the output of the stage nor stored is returned. -/
theorem Expr.lowerResult_of_kept {c : Context} {scope : Scope} {value : Expr}
    (kept : ¬(c.interface.roleOf value.ty = .output ∨ c.entry.isBound = true)) :
    value.lowerResult c scope = [.result (some (value.lower c scope.result))] := by
  obtain ⟨noOutput, unbound⟩ := not_or.1 kept
  have noVariable : c.returnVariable? = none := by
    rw [← Option.not_isSome_iff_eq_none, c.isSome_returnVariable?]
    exact unbound
  simp [lowerResult, noOutput, noVariable]

/-- Suppose that no function occurs in the body of the entry, that whatever it returns has the type
it declares, and that this type stands for a structure of the shader or the semantic of the entry
names a variable. Then every return statement in `main` is bare exactly when the entry does not
return a value of a structure that it also takes without a semantic that names a variable; and in
that case such values are returned from `main`. -/
theorem main_returns_bare_iff {shader : Shader} {profile : Profile} {entryName : String}
    {output : Output} {entry : Function}
    (generated : generate shader profile entryName = .ok output)
    (found : shader.function? entryName = some entry)
    (flat : ∀ signature content, ¬(Statement.function signature content).Occurs entry.body)
    (typed : ∀ value, (Statement.result (some value)).Occurs entry.body →
      value.ty = entry.result)
    (stored : (∃ name struct, entry.result.structName = some name ∧
      shader.struct? name = some struct) ∨ entry.isBound = true) :
    ∃ names, Renaming.ofTokens shader.tokens = .ok names ∧
      let c := Context.ofEntry shader profile entry
      let takesResult := ∃ struct, c.interface.input = some struct ∧
        c.interface.output = some struct
      (∃ front, output.text = Line.renderAll (front ++ [⟨0, "void main()"⟩, ⟨0, "\x7b"⟩] ++
        c.program.propertyLines names ++ Glsl.Stmt.linesAll names 1 c.program.body ++
        [⟨0, "\x7d"⟩])) ∧
      ((∀ value ∈ Glsl.Stmt.returnedAll c.program.body, value = none) ↔
        ¬(takesResult ∧ entry.isBound = false ∧
          ∃ value, (Statement.result (some value)).Occurs entry.body)) ∧
      (takesResult → entry.isBound = false → ∀ value scope depth,
        (Statement.result (some value)).Placed c scope depth c.mainScope 1 entry.body →
        ⟨depth, "return " ++ (value.lower c scope.result).text names ++ ";"⟩ ∈
          c.program.lines names) := by
  obtain ⟨other, names, run⟩ := generate_eq_ok_iff.1 generated
  obtain rfl := Option.some.inj (found.symm.trans run.found)
  refine ⟨names, run.chosen, ?_⟩
  intro c takesResult
  have neither : takesResult ∧ entry.isBound = false ↔
      ¬(c.interface.roleOf entry.result = .output ∨ c.entry.isBound = true) :=
    Interface.takesResult_iff stored
  have written (value : Expr) (occurs : (Statement.result (some value)).Occurs entry.body) :
      ∃ scope depth,
        (Statement.result (some value)).Placed c scope depth c.mainScope 1 entry.body :=
    occurs.placed (fun signature content nested => absurd nested (flat signature content)) _ _
  have role {value : Expr} {scope : Scope} {depth : Nat}
      (placed : (Statement.result (some value)).Placed c scope depth c.mainScope 1 entry.body) :
      scope.inMain = true ∧ c.interface.roleOf value.ty = c.interface.roleOf entry.result :=
    ⟨placed.inMain, by rw [typed value placed.occurs]⟩
  refine ⟨?_, ⟨fun bare => ?_, fun sound value returned => ?_⟩, ?_⟩
  · obtain ⟨front, text⟩ := run.main_text
    refine ⟨front, ?_⟩
    rw [text, Glsl.Program.mainLines]
    simp only [List.append_assoc, c]
  · rintro ⟨takes, unbound, value, occurs⟩
    obtain ⟨scope, depth, placed⟩ := written value occurs
    have kept := neither.1 ⟨takes, unbound⟩
    have own : some (value.lower c scope.result) ∈
        (Statement.result (some value)).ownReturns c scope := by
      rw [Statement.ownReturns, (role placed).2, if_neg fun stored => kept stored.2]
      exact List.mem_cons_self
    cases bare _ ((Statement.mem_returnedAll_lowerAll 1).2 ⟨_, scope, depth, placed, own⟩)
  · obtain ⟨s, scope, depth, placed, own⟩ := (Statement.mem_returnedAll_lowerAll 1).1 returned
    cases s with
    | result given =>
      cases given with
      | none => exact List.mem_singleton.1 own
      | some given =>
        obtain ⟨inMain, sameRole⟩ := role placed
        rw [Statement.ownReturns, sameRole] at own
        split at own
        · exact List.mem_singleton.1 own
        · rename_i kept
          obtain ⟨takes, unbound⟩ := neither.2 fun stored => kept ⟨inMain, stored⟩
          exact absurd ⟨takes, unbound, given, placed.occurs⟩ sound
    | _ => cases own
  · intro takes unbound value scope depth placed
    have kept := neither.1 ⟨takes, unbound⟩
    rw [← (role placed).2] at kept
    have lines := Context.lines_of_entry placed names
    rw [Statement.lower, Expr.lowerResult_of_kept kept] at lines
    exact lines.subset List.mem_cons_self

/-- A vertex entry that takes a structure of the given name and returns another one, once early. -/
def earlyStruct (taken : String) : Shader :=
  let vec4 := Ty.ofBase (.vector (.float .full) .four)
  let named (name : String) : Ty := ⟨.userDefined, some name, false, none, false, false⟩
  let held : Expr := .identifier "o" (named "Carried")
  [.struct ⟨"Taken", [⟨"uv", vec4, some "TEXCOORD0", none⟩]⟩,
  .struct ⟨"Carried", [⟨"uv", vec4, some "TEXCOORD0", none⟩]⟩,
  .function ⟨"main", named "Carried", none, [⟨"i", named taken, .plain⟩]⟩
    [.declare ⟨"o", named "Carried", none, none, []⟩,
    .branch (.literal (.bool true) boolTy) [.result (some held)] none,
    .result (some held)]]

/-- Both results of the entry, the early one and the last, are returns without a value. -/
theorem earlyStruct_bare :
    let profile : Profile := ⟨.mobileA, .legacy, .vertex⟩
    ∃ output entry names front, generate (earlyStruct "Taken") profile "main" = .ok output ∧
      (earlyStruct "Taken").function? "main" = some entry ∧
      Renaming.ofTokens (earlyStruct "Taken").tokens = .ok names ∧
      let body := (Context.ofEntry (earlyStruct "Taken") profile entry).program.body
      output.text = Line.renderAll (front ++ [⟨0, "void main()"⟩, ⟨0, "\x7b"⟩] ++ [] ++
        Glsl.Stmt.linesAll names 1 body ++ [⟨0, "\x7d"⟩]) ∧
      Glsl.Stmt.returnedAll body ≠ [] ∧ ∀ value ∈ Glsl.Stmt.returnedAll body, value = none := by
  have generated :
      generate (earlyStruct "Taken") ⟨.mobileA, .legacy, .vertex⟩ "main" = .ok _ := rfl
  have found : (earlyStruct "Taken").function? "main" = some _ := rfl
  have named : (earlyStruct "Taken").struct? "Carried" = some _ := rfl
  obtain ⟨names, chosen, ⟨front, text⟩, bare, -⟩ := main_returns_bare_iff generated found
    (by simp [Statement.blocks]) (by rintro value occurs; simp_all [Statement.blocks, Expr.ty])
    (Or.inl ⟨_, _, rfl, named⟩)
  refine ⟨_, _, names, front, generated, found, chosen, text, by decide, bare.2 ?_⟩
  rintro ⟨⟨struct, taken, returned⟩, -⟩
  have apart := congrArg (Option.map Struct.name) (taken.trans returned.symm)
  exact absurd apart (by decide)

/-- With the structure taken and returned at once, both values are returned from `main`. -/
theorem earlyStruct_returned :
    generate (earlyStruct "Carried") ⟨.desktopOther, .modern, .vertex⟩ "main" =
      .ok ⟨Line.renderAll
        ((Profile.preamble ⟨.desktopOther, .modern, .vertex⟩ []).map (Line.mk 0) ++
          [⟨0, "in vec4 attr_uv;"⟩, ⟨0, "out vec4 var_uv;"⟩, .blank, ⟨0, "struct Taken \x7b"⟩,
            ⟨1, "vec4 uv;"⟩, ⟨0, "\x7d;"⟩, .blank, ⟨0, "void main()"⟩, ⟨0, "\x7b"⟩,
            ⟨1, "if (true) \x7b"⟩, ⟨2, "return o;"⟩, ⟨1, "\x7d"⟩, ⟨1, "return o;"⟩,
            ⟨0, "\x7d"⟩]),
        .glsl330, []⟩ := by
  decide +kernel

end GlslText
