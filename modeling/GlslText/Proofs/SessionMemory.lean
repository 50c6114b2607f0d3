import GlslText.Session
import Mathlib.Data.List.Forall2

/-!
# A session remembers its last answer only

A request is answered from the platform and the request alone, whatever the session remembers, and
after it the session remembers that answer and nothing of an earlier one. Both are facts about one
step. Along a run the platform is the only thing that is handed on, so every request of a session is
answered as it would be by a session of its own.
-/

namespace GlslText.Session

/-- A session on a platform that remembers an answer: text and features of a text that was given,
and nothing when there was none. -/
structure Remembers (platform : Platform) (given : Except Fault Output) (session : Session) :
    Prop where
  onPlatform : session.platform = platform
  text : session.text? = given.toOption.map Output.text
  features : session.features = (given.toOption.map Output.features).getD []

/-- What a session remembers does not reach its next step. -/
theorem step_eq_start (session : Session) (request : Request) :
    session.step request = (start session.platform).step request :=
  rfl

/-- A request is answered as it is alone. -/
theorem step_answer (session : Session) (request : Request) :
    (session.step request).1 = answer session.platform request := by
  simp only [step, forget]
  cases answer session.platform request with
  | error fault => rfl
  | ok output => rfl

/-- The answer to a request is what is remembered after it. -/
theorem step_remembers (session : Session) (request : Request) :
    Remembers session.platform (session.step request).1 (session.step request).2 := by
  simp only [step, forget]
  cases answer session.platform request with
  | error fault => exact ⟨rfl, rfl, rfl⟩
  | ok output => exact ⟨rfl, rfl, rfl⟩

/-- A run gives for each request what a session of its own gives. -/
theorem run_eq_map (session : Session) (requests : List Request) :
    session.run requests = requests.map (start session.platform).step := by
  induction requests generalizing session with
  | nil => rfl
  | cons request rest ih =>
    have later := ih (session.step request).2
    rw [(session.step_remembers request).onPlatform] at later
    rw [run, List.map_cons, later, ← step_eq_start]

/-- A session has no memory: however many requests it has answered, with or without success, each
one is answered as by a generation of its own, and after each one the session remembers the text
and the features of that answer, or nothing if there is none. -/
theorem run_answers_alone (platform : Platform) (requests : List Request) :
    List.Forall₂
        (fun request done =>
          done.1 = generate request.shader ⟨platform, request.requested, request.stage⟩
            request.entryName ∧
          Remembers platform done.1 done.2)
        requests ((start platform).run requests) ∧
      (start platform).run requests = requests.map (start platform).step := by
  have alone := run_eq_map (start platform) requests
  refine ⟨?_, alone⟩
  rw [alone, List.forall₂_map_right_iff, List.forall₂_same]
  intro request _
  exact ⟨step_answer (start platform) request, step_remembers (start platform) request⟩

end GlslText.Session
