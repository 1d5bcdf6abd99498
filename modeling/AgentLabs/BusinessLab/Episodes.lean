import AgentLabs.BusinessLab.Scripted

/-!
# Episodes

An episode is a request and the further inputs of the user, each given only if the
response before it asks for more. All turns share one environment. Whatever happens, the
harness keeps what it has: the turns so far, the events, and the state that is left.

## Main definitions

* `Followup`, `EpisodeState`: a further input, and the state of an episode
* `runTurn`, `runTurns`: one turn, and the loop of turns
* `executeEpisode`: the episode
-/

namespace AgentLabs.BusinessLab

open Math Text

/-- A further input of the user. -/
structure Followup where
  request : Request
  deriving DecidableEq, Repr

/-- `when_response`, which can only be a request for clarification. -/
def Followup.whenResponse (_ : Followup) : ResponseKind := .clarification

/-- The state of an episode. -/
structure EpisodeState where
  env : Environment
  current : Request
  response : Option Response := none
  turns : List TurnRecord := []
  error : Option ScriptError := none

/-- One turn. It is recorded even if the driver fails in it. -/
def runTurn (invoke : Request → Script Response) (index : ℕ) (s : EpisodeState) : EpisodeState :=
  let before := { s.env with turnIndex := index + 1 }
  let outcome := invoke s.current before
  let record : TurnRecord :=
    { turnIndex := index + 1
      request := s.current
      response := outcome.1.toOption
      eventIds := (outcome.2.events.drop before.events.length).map fun e => e.stamp.eventId
      initialState := before.snapshot
      finalState := outcome.2.snapshot }
  { s with
    env := outcome.2
    response := outcome.1.toOption
    turns := s.turns ++ [record]
    error := match outcome.1 with
      | .ok _ => none
      | .error error => some error }

/-- The loop of turns, from `index` on. -/
def runTurns (invoke : Request → Script Response) (followups : List Followup) :
    ℕ → ℕ → EpisodeState → EpisodeState
  | 0, _, s => s
  | n + 1, index, s =>
    let next : Option EpisodeState :=
      if index = 0 then some s
      else
        match followups[index - 1]?, s.response with
        | some input, some response =>
          if response.kind = input.whenResponse then some { s with current := input.request }
          else none
        | _, _ => none
    match next with
    | none => s
    | some s =>
      let s := runTurn invoke index s
      if s.error.isSome then s else runTurns invoke followups n (index + 1) s

/-- The exception at the first row that cannot be inserted. Its integers are bound before its
keys are looked up. -/
def insertError {α κ : Type} [DecidableEq κ] (keys : α → List κ) (fits : α → Bool) :
    List κ → List α → Option ServiceError
  | _, [] => none
  | seen, row :: rows =>
    if fits row = false then some .overflowError
    else if ∃ key ∈ keys row, key ∈ seen then some .integrityError
    else insertError keys fits (keys row ++ seen) rows

/-- The exception that ends the load of a fixture. -/
def Fixture.loadError (fixture : Fixture) : Option ServiceError :=
  insertError (fun o : OrderRow => [o.id]) (fun o => o.Fits) [] fixture.orders <|>
  insertError (fun p : PaymentRow => [p.orderId]) (fun p => p.Fits) [] fixture.payments <|>
  insertError (fun entry : String × Int => [entry.1]) (fun entry => Fits64 entry.2) []
    fixture.inventory <|>
  insertError (fun r : ReleaseRow => [Sum.inl r.orderId, Sum.inr r.operationKey])
    (fun r => Fits64 r.quantity) [] fixture.releases

/-- An episode that never got an environment. -/
def unstartedEpisode (request : Request) (scenarioId release : String) (trial : ℕ)
    (errorType : String) : Artifact where
  scenarioId
  release
  trial
  request
  executionStatus := .infraError
  initialState := []
  finalState := none
  events := []
  response := none
  errorType := some errorType
  initialRequest := some request

/-- `execute_episode`. The driver is given by the mode; an unknown mode gives none. -/
def executeEpisode (invoke : Option (Request → Script Response)) (request : Request)
    (fixture : Fixture) (followups : List Followup) (maxTurns : ℕ) (scenarioId release : String)
    (trial : ℕ) : Artifact :=
  if maxTurns < 1 ∨ maxTurns < followups.length + 1 then
    unstartedEpisode request scenarioId release trial "ValueError"
  else
    match Environment.ofFixture fixture with
    | none => unstartedEpisode request scenarioId release trial
        (fixture.loadError.elim "" ServiceError.typeName)
    | some env =>
      let last : EpisodeState := match invoke with
        | none => { env, current := request, error := some .valueError }
        | some invoke => runTurns invoke followups maxTurns 0 { env, current := request }
      { scenarioId
        release
        trial
        request := last.current
        executionStatus := if last.error.isSome then .executionError else .completed
        initialState := env.snapshot
        finalState := some last.env.snapshot
        events := last.env.events
        response := last.response
        errorType := last.error.map ScriptError.typeName
        initialRequest := some request
        turns := last.turns }

end AgentLabs.BusinessLab
