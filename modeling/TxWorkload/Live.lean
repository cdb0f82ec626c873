import Std.Async.DNS
import Std.Async.Signal
import Std.Async.TCP
import Std.Async.Timer
import Std.Time
import TxWorkload.CommandLine
import TxWorkload.Http.Message
import TxWorkload.Rpc.Client

/-!
# Live — routines on the real clock and the real network

Every effect of a routine is carried out at once, and every wait blocks the thread of its task. A
wait that races against cancellation goes on as soon as its token is resolved. Nothing here is
decided: what is done, and in which order, is for the routines to say.
-/

namespace TxWorkload
namespace Live

open Routine (Clock Effect Wait Level)
open Std.Async (Async AsyncTask Sleep)

/-! ## Surroundings -/

/-- A promise that is resolved when a task is to end. -/
abbrev Token := IO.Promise Unit

/-- What the routines of one task act on. -/
structure Surroundings (S : Signature) where
  counters : IO.Ref Stats.Counters
  token : Token
  started : Nat
  /-- Get an answer. A request that may be given up has none if its token is resolved first. -/
  reply : Bool → S.Request → IO (Option S.Answer)

/-- Write a log line with the local time. -/
def writeLine (level : Level) (text : String) : IO Unit := do
  let now ← Std.Time.PlainDateTime.now
  IO.println (CommandLine.line (now.format "uuuu-MM-dd HH:mm:ss") level text)
  (← IO.getStdout).flush

/-- Random words. -/
def randomWords (n : Nat) : IO Random.Supply := do
  let bytes ← IO.getRandomBytes (8 * n).toUSize
  return (List.range n).map fun i =>
    ((List.range 8).map fun j => bytes.get! (8 * i + j)).foldl (fun w b => w * 256 + b.toUInt64) 0

/-- Draw with as many random words as it takes. -/
partial def drawLive {α : Type} (d : Random.Draw α) (n : Nat) : IO α := do
  match d (← randomWords n) with
  | .value a _ => return a
  | .dry => drawLive d (2 * n)
  | .abort cause => throw (IO.userError cause.message)

/-- Carry out an effect. -/
def perform {S : Signature} (s : Surroundings S) {β : Type} : Effect S β → IO β
  | .access a => s.counters.modifyGet a.apply
  | .log level text => writeLine level text
  | .mark _ => return ()
  | .isCancelled => s.token.isResolved
  | .checkpoint => s.token.isResolved
  | .cancel => s.token.resolve ()
  | .clock => IO.monoNanosNow
  | .uptime => return ⟨(← IO.monoNanosNow) - s.started⟩
  | .draw d => drawLive d 64

/-! ## Waits -/

/-- The result of a task, unless the token is resolved first. -/
def unlessResolved {α : Type} (token : Token) (task : AsyncTask α) : IO (Option α) := do
  let outcome : Task (Except IO.Error α) := task
  let given : Task (Option (Except IO.Error α)) := outcome.map some
  let ended : Task (Option (Except IO.Error α)) := token.result?.map fun _ => none
  match ← IO.waitAny [ended, given] with
  | some outcome => some <$> IO.ofExcept outcome
  | none => return none

/-- A timer on a clock that counts milliseconds. -/
def timer (d : Duration) : Async Unit := do
  let sleep ← Sleep.mk (.ofNat (Clock.millis.deadline 0 d / 1000000))
  sleep.wait

/-- Wait for something; if the wait may be given up, there is no result once the token is
resolved. -/
def await {S : Signature} (s : Surroundings S) (givesUp : Bool) {β : Type} :
    Wait S β → IO (Option β)
  | .reply request => s.reply givesUp request
  | .timer d => do
      let task ← (timer d).toIO
      if givesUp then unlessResolved s.token task else some <$> task.block

/-- Carry out a routine. -/
partial def run {S : Signature} (s : Surroundings S) {α : Type} : Routine S α → IO α
  | .done a => return a
  | .perform e next => do run s (next (← perform s e))
  | .wait w next => do
      match ← await s false w with
      | some b => run s (next b)
      | none => throw (IO.userError "a wait was given up")
  | .race w next => do run s (next (← await s true w))
  | .loop state body next => do
      match ← run s (body state) with
      | .inl state => run s (.loop state body next)
      | .inr b => run s (next b)

/-! ## Exchanges -/

/-- Receive a reply until it is complete. -/
partial def receive (client : Std.Async.TCP.Socket.Client) (received : List UInt8) :
    Async Rpc.Exchange := do
  let some bytes ← client.recv? 65536 | return settle (Http.readReply true received)
  let received := received ++ bytes.toList
  match Http.readReply false received with
  | .unfinished => receive client received
  | reading => return settle reading
where
  /-- The exchange that a reply makes. -/
  settle : Http.Reading → Rpc.Exchange
    | .finished status body => .answered status body
    | _ => .failed "connection closed before message completed"

/-- The first address of a host. -/
def resolve (url : Http.Url) : Async Std.Net.SocketAddress := do
  let addresses ← Std.Async.DNS.getAddrInfo url.host (toString url.service)
  let v4 := addresses.findSome? fun a =>
    match a with
    | .v4 a => some (Std.Net.SocketAddress.v4 ⟨a, url.service⟩)
    | .v6 _ => none
  match v4 with
  | some address => return address
  | none => throw (IO.userError s!"no address for {url.host}")

/-- Post an envelope once. -/
def exchange (p : Rpc.Post) : Async Rpc.Exchange := do
  match Http.Url.parse? p.url with
  | none => return .failed s!"cannot post to {p.url}"
  | some url =>
      try
        let client ← Std.Async.TCP.Socket.Client.mk
        client.connect (← resolve url)
        client.send (Http.postText url p.request.text).toUTF8
        receive client []
      catch e => return .failed e.toString

/-- Post an envelope once, for as long as the settings allow. -/
def exchangeWithin (timeout : Duration) (p : Rpc.Post) : IO (AsyncTask Rpc.Exchange) := do
  let answered ← (exchange p).toIO
  let late ← (timer timeout).toIO
  let tooLate : AsyncTask Rpc.Exchange := late.map fun _ => .failed "operation timed out"
  return (← IO.asTask (do IO.ofExcept (← IO.waitAny [answered, tooLate])) .dedicated)

/-- The surroundings of the posts of a call. -/
def posting (calls : Config.Calls) (counters : IO.Ref Stats.Counters) (token : Token)
    (started : Nat) : Surroundings Rpc.posts where
  counters := counters
  token := token
  started := started
  reply := fun givesUp p => do
    let task ← exchangeWithin calls.timeout p
    if givesUp then unlessResolved token task else some <$> task.block

/-- The surroundings of an activity: its calls are made by a client. -/
def calling (calls : Config.Calls) (counters : IO.Ref Stats.Counters) (token : Token)
    (started : Nat) : Surroundings activities where
  counters := counters
  token := token
  started := started
  reply := fun givesUp c => do
    let client := posting calls counters token started
    if givesUp then run client (Rpc.call calls.retry c).guarded
    else some <$> run client (Rpc.call calls.retry c)

/-! ## Runs -/

/-- Write down a signal when it comes, and resolve tokens. -/
def listen (signal : CommandLine.Signal) (tokens : List Token) : IO Unit := do
  let number : Std.Async.Signal := match signal with
    | .interrupt => .sigint
    | .terminate => .sigterm
  let waiter ← Std.Async.Signal.Waiter.mk number false
  let task ← waiter.wait
  let _ ← IO.mapTask (fun _ => do
    for (level, text) in signal.notes do writeLine level text
    for token in tokens do token.resolve ()) task

/-- Run a workload until a signal comes. -/
def start (w : Workload) : IO Unit := do
  let counters ← IO.mkRef {}
  let token : Token ← IO.Promise.new
  let watchToken : Token ← IO.Promise.new
  let started ← IO.monoNanosNow
  let main := calling w.config.calls counters token started
  let background := calling w.config.calls counters watchToken started
  listen .interrupt [token, watchToken]
  listen .terminate [token, watchToken]
  run main w.opening
  let watch ← IO.asTask (run background (Activity.watch w.network w.config.watch)) .dedicated
  let generation ← IO.asTask (run main w.plan.run) .dedicated
  let outcome := match ← IO.wait generation with
    | .ok count => .ok count
    | .error e => .error (Error.task e.toString)
  run main (Workload.verdict outcome)
  watchToken.resolve ()
  let _ ← IO.wait watch
  let _ ← run main Workload.closing

end Live
end TxWorkload
