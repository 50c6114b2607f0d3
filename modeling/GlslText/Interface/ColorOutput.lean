import GlslText.Fault
import GlslText.Interface.Role
import GlslText.Shader.Walk

/-!
# Colour outputs

In the modern generation a fragment stage declares its colour outputs: those it writes, in the
order of its fields, and then those it only reads, in ascending order. One that is read, written
or not, is declared for both directions.
-/

namespace GlslText

/-- The function that reads a colour output. -/
def fetchCallee : String := "FramebufferFetch"

/-- The colour output of the given number, if there is one. -/
def slotOfInt? (n : Int) : Option (Fin slotCount) :=
  if h : 0 ≤ n ∧ n < slotCount then some ⟨n.toNat, by omega⟩ else none

/-- The colour output that a read with the given arguments names. -/
def fetchTarget (arguments : List Expr) : Except FetchFault (Fin slotCount) :=
  let within (slot : Option (Fin slotCount)) : Except FetchFault (Fin slotCount) :=
    match slot with
    | some slot => .ok slot
    | none => .error .outOfRange
  match arguments with
  | [.literal (.int n) _] => within (slotOfInt? n)
  | [.literal (.uint n) _] => within (slotOfInt? n)
  | [_] => .error .notLiteral
  | _ => .error (.count arguments.length)

/-- The colour outputs that a shader reads. -/
def Shader.fetchedSlots (shader : Shader) : List Nat :=
  (shader.calls fetchCallee).filterMap fun call =>
    match fetchTarget call.arguments with
    | .ok slot => some slot.val
    | .error _ => none

/-- The reads of a shader that do not say which colour output they are from. -/
def Shader.fetchFaults (shader : Shader) : List Fault :=
  (shader.calls fetchCallee).filterMap fun call =>
    match fetchTarget call.arguments with
    | .ok _ => none
    | .error cause => some (.fetch cause)

/-- The slots that an entry writes: those of the fields it returns, or its own. -/
def Interface.slots (interface : Interface) (entry : Function) : List Slot :=
  match interface.output with
  | some struct => struct.fields.filterMap Field.slot?
  | none => (entry.semantic.bind Slot.ofSemantic?).toList

/-- A declared colour output. -/
structure ColorOutput where
  location : Nat
  /-- Whether it is read as well. -/
  isFetched : Bool
deriving DecidableEq, Repr

/-- Puts a number in its place in a strictly ascending list. -/
def insertAscending (n : Nat) : List Nat → List Nat
  | [] => [n]
  | m :: rest =>
    if n < m then n :: m :: rest
    else if n = m then m :: rest
    else m :: insertAscending n rest

/-- The numbers of a list in strictly ascending order. -/
def ascending (numbers : List Nat) : List Nat :=
  numbers.foldr insertAscending []

/-- Putting a number in its place adds that number alone. -/
theorem mem_insertAscending (n k : Nat) (numbers : List Nat) :
    k ∈ insertAscending n numbers ↔ k = n ∨ k ∈ numbers := by
  induction numbers with
  | nil => simp [insertAscending]
  | cons m rest ih =>
    rw [insertAscending]
    split
    · simp
    · split
      · simp_all
      · rw [List.mem_cons, ih, List.mem_cons]
        exact or_left_comm

/-- Sorting neither adds nor drops a number. -/
@[simp]
theorem mem_ascending (k : Nat) (numbers : List Nat) : k ∈ ascending numbers ↔ k ∈ numbers := by
  induction numbers with
  | nil => simp [ascending]
  | cons n rest ih =>
    change k ∈ insertAscending n (ascending rest) ↔ k ∈ n :: rest
    rw [mem_insertAscending, ih, List.mem_cons]

/-- A resolution under way: the outputs declared so far, and the outputs read that are still to be
declared, in ascending order. -/
structure Resolving where
  declared : List ColorOutput
  remaining : List Nat

namespace Resolving

/-- Nothing is declared before the first output that is written. -/
def start (fetched : List Nat) : Resolving :=
  ⟨[], ascending fetched⟩

/-- Declares the output that is written next, unless it is declared already. -/
def declare (state : Resolving) (location : Nat) : Resolving :=
  if location ∈ state.declared.map ColorOutput.location then
    state
  else
    { declared := state.declared ++ [⟨location, state.remaining.contains location⟩]
      remaining := state.remaining.erase location }

/-- Declares what is still to be declared: the outputs that are only read. -/
def finish (state : Resolving) : List ColorOutput :=
  state.declared ++ state.remaining.map fun location => ⟨location, true⟩

end Resolving

/-- The colour outputs to declare, given the numbers of those that are written, in the order in
which they are, and of those that are read. -/
def resolveLocations (written fetched : List Nat) : List ColorOutput :=
  (written.foldl Resolving.declare (.start fetched)).finish

/-- The colour outputs to declare, given the slots written and the outputs read. -/
def resolveOutputs (written : List Slot) (fetched : List Nat) : List ColorOutput :=
  resolveLocations (written.map Slot.index) fetched

/-- The declaration of a colour output. -/
def ColorOutput.text (output : ColorOutput) : String :=
  let location := toString output.location
  "layout (location = " ++ location ++ ") " ++ (if output.isFetched then "inout" else "out")
    ++ " vec4 out_FragColor" ++ location ++ ";"

end GlslText
