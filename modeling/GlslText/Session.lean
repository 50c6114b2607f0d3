import GlslText.Generate

/-!
# Sessions

A session generates one text after another for the same platform. It remembers the text and the
features of the last generation. Both are forgotten before the next one, so that nothing is
remembered when that fails.
-/

namespace GlslText

/-- A request for a text. -/
structure Request where
  shader : Shader
  requested : Generation
  stage : Stage
  entryName : String

/-- A session on a platform. -/
structure Session where
  platform : Platform
  /-- The text that is remembered. -/
  text? : Option String
  /-- The features that are remembered. -/
  features : Features
deriving DecidableEq, Repr

namespace Session

/-- A session that has generated nothing yet. -/
def start (platform : Platform) : Session :=
  ⟨platform, none, []⟩

/-- Drops what is remembered. -/
def forget (session : Session) : Session :=
  { session with text? := none, features := [] }

/-- Remembers what a generation gave. -/
def remember (session : Session) (output : Output) : Session :=
  { session with text? := some output.text, features := output.features }

/-- What a request gives on a platform. -/
def answer (platform : Platform) (request : Request) : Except Fault Output :=
  generate request.shader ⟨platform, request.requested, request.stage⟩ request.entryName

/-- Answers a request. What was remembered is dropped first, and a text is remembered only when
there is one. -/
def step (session : Session) (request : Request) : Except Fault Output × Session :=
  let cleared := session.forget
  match answer cleared.platform request with
  | .error fault => (.error fault, cleared)
  | .ok output => (.ok output, cleared.remember output)

/-- Answers requests in turn; each answer comes with the session after it. -/
def run (session : Session) : List Request → List (Except Fault Output × Session)
  | [] => []
  | request :: rest =>
    let done := session.step request
    done :: run done.2 rest

end Session

end GlslText
