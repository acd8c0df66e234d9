import Synopsis.Endpoint.Exchange
import Synopsis.Notice
/-!
# Sessions

A session remembers who answers questions, what was asked and sent, and what was told about the
work. Who answers is settled by the first question of a session and stays; later settings and
variables change nothing. What the network will bring back, or what will be answered without any
network, is given beforehand, so that a session is a function of it.
-/

namespace Synopsis

inductive Runner where
  /-- Answers that were arranged beforehand. -/
  | arranged
  /-- An endpoint in the network. -/
  | endpoint (e : Endpoint)

structure Session where
  «variables» : Variables := []
  runner : Option Runner := none
  /-- The answers that are arranged and were not given yet; an error is a failure in words. -/
  replies : List (Except String String) := []
  /-- What the network will bring back. -/
  deliveries : List Delivery := []
  /-- The questions that reached the arranged answers. -/
  questions : List Question := []
  /-- The requests that were sent. -/
  requests : List Request := []
  notices : List Notice := []

namespace Session

def tell (notice : Notice) : StateM Session Unit :=
  modify fun s => { s with notices := s.notices ++ [notice] }

def nextReply (session : Session) : Except Endpoint.Fault String :=
  match session.replies.head? with
  | none => .error (.arranged "no more replies")
  | some (.ok text) => .ok text
  | some (.error reason) => .error (.arranged reason)

def takeReply (question : Question) : StateM Session (Except Endpoint.Fault String) :=
  modifyGet fun s => (s.nextReply,
    { s with questions := s.questions ++ [question], replies := s.replies.drop 1 })

/-- Sends a request and takes what the network brings back. -/
def deliver (request : Request) : StateM Session Delivery :=
  modifyGet fun s =>
    (s.deliveries.head?.getD (.unreachable "offline"),
      { s with requests := s.requests ++ [request], deliveries := s.deliveries.drop 1 })

/-- Asks an endpoint. A question that gives no request is not sent. -/
def askEndpoint (e : Endpoint) (question : Question) :
    StateM Session (Except Endpoint.Fault String) := do
  match e.request question with
  | .error fault => return .error fault
  | .ok request => return Endpoint.answer e.patience (← deliver request)

def ask (runner : Runner) (question : Question) : StateM Session (Except Endpoint.Fault String) :=
  match runner with
  | .arranged => takeReply question
  | .endpoint e => askEndpoint e question

/-- Who answers in this session: settled by the settings and the variables if nobody is yet. -/
def settleRunner (settings : SummarySettings) : StateM Session Runner :=
  modifyGet fun s =>
    match s.runner with
    | some runner => (runner, s)
    | none =>
      let runner := .endpoint (Endpoint.ofOptions s.«variables» (Endpoint.optionsOf settings))
      (runner, { s with runner := some runner })

end Session

end Synopsis
