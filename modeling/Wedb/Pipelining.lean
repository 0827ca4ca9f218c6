/-
Pipelined requests, which the network may cut anywhere: the connection executes each of them once
and in order, up to one that closes it.
-/

import Wedb.RequestFrames
import Wedb.StreamIndependence

namespace Wedb.Net

open Resp Streaming List

variable {σ : Type}

/-- A request for a known command within the limits of the connection. -/
structure Request where
  name : Bytes
  items : List Bytes
  primary : RespCommand
  hasSub : Bool
  known : RespCommand.lookup name = some (primary, hasSub)
  few : items.length < maxMultibulkArgs
  sizes : ∀ item ∈ name :: items, item.length ≤ maxArgumentLengthBytes

namespace Request

variable (request : Request)

def written : Bytes := writeRequest (request.name :: request.items)

/-- The command asked for and its arguments. -/
def asked : RespCommand × List Bytes :=
  settleCommand request.primary request.hasSub request.items

def outcome : Outcome := .command request.asked.1 request.asked.2

/-- The state after the request, and whether it closes the connection. -/
def execute (session : NetSession σ) (state : σ) : σ × Bool :=
  session.execute state request.asked.1 request.asked.2

end Request

/-- Requests one after the other: the outcomes, the state, the bytes used and whether it goes on. -/
def serveInOrder (session : NetSession σ) : List Request → σ → List Outcome × σ × Nat × Bool
  | [], state => ([], state, 0, true)
  | request :: requests, state =>
    let (after, closed) := request.execute session state
    if closed then ([request.outcome], after, request.written.length, false)
    else
      let (outcomes, last, used, isOpen) := serveInOrder session requests after
      (request.outcome :: outcomes, last, request.written.length + used, isOpen)

theorem exceedsMultibulkArgs_formatNat :
    ∀ count < maxMultibulkArgs + 1, exceedsMultibulkArgs (formatNat count) = false := by
  decide +kernel

theorem isOversizedMultibulk_written (request : Request) (more : Bytes) :
    isOversizedMultibulk (request.written ++ more) = false := by
  rw [← Bool.not_eq_true, isOversizedMultibulk_iff]
  rintro ⟨number, tail, whole, clean, -, exceeds⟩
  let count := request.items.length + 1
  have digital := (formatNat_spec count).2.1
  have cleanCount : (13 : UInt8) ∉ formatNat count := fun wrong =>
    absurd (all_eq_true.mp digital 13 wrong) (by decide)
  have header : request.written ++ more = 42 :: (formatNat count ++ 13 :: 10 ::
      (writeItems (request.name :: request.items) ++ more)) := by
    simp [Request.written, writeRequest, writeArrayHeader, crlf, count]
  have same := (cons.inj (header.symm.trans whole)).2
  have length := congrArg (idxOf 13) same
  rw [idxOf_append_cons cleanCount, idxOf_append_cons clean] at length
  rw [← append_inj_left same length,
    exceedsMultibulkArgs_formatNat count (Nat.succ_lt_succ request.few)] at exceeds
  cases exceeds

theorem plainRound_written (session : NetSession σ) (request : Request) (state : σ) (more : Bytes) :
    plainRound session state (request.written ++ more) =
      some ⟨request.outcome, request.written.length, (request.execute session state).1,
        !(request.execute session state).2⟩ := by
  have parsed := (parseSessionCommand_writeRequest .start request.items more request.known).ok
    ⟨request.few.trans (by decide), request.sizes⟩
  rw [parseSessionCommand_eq_plainCommand SessionMruCache.Reachable.start.sound] at parsed
  have plain : plainCommand (request.written ++ more) = _ := parsed
  unfold plainRound
  rw [isOversizedMultibulk_written, if_neg Bool.false_ne_true, plain]
  rfl

theorem drain_requests (session : NetSession σ) (requests : List Request)
    (decoding : Decoding UInt8 σ Outcome) (isOpen : decoding.isOpen)
    (waiting : decoding.unparsed = requests.flatMap Request.written) {fuel : Nat}
    (enough : decoding.unparsed.length < fuel) :
    (decoding.drain (plainRound session) fuel).observed =
      let served := serveInOrder session requests decoding.state
      (decoding.outputs ++ served.1, served.2.1, decoding.consumed + served.2.2.1,
        served.2.2.2) := by
  induction requests generalizing decoding fuel with
  | nil =>
    have waits : plainRound session decoding.state decoding.unparsed = none := by
      rw [waiting]
      rfl
    rw [Decoding.drain_of_waits waits]
    simp [Decoding.observed, serveInOrder, isOpen]
  | cons request requests ih =>
    obtain ⟨fuel, rfl⟩ : ∃ less, fuel = less + 1 := ⟨fuel - 1, by omega⟩
    have made := plainRound_written session request decoding.state
      (requests.flatMap Request.written)
    rw [← flatMap_cons, ← waiting] at made
    rw [Decoding.drain_of_round isOpen made]
    cases closes : (request.execute session decoding.state).2 with
    | true =>
      have closed : (decoding.advance ⟨request.outcome, request.written.length,
          (request.execute session decoding.state).1, !true⟩).isOpen = false := rfl
      rw [Decoding.drain_of_closed closed]
      simp [Decoding.observed, Decoding.advance, serveInOrder, closes]
    | false =>
      have progress : 0 < request.written.length := by
        simp [Request.written, writeRequest, writeArrayHeader]
      have rest : decoding.unparsed.drop request.written.length =
          requests.flatMap Request.written := by
        rw [waiting, flatMap_cons, drop_left]
      have fewer : (decoding.unparsed.drop request.written.length).length < fuel := by
        rw [waiting, flatMap_cons, length_append] at enough
        rw [rest]
        omega
      rw [ih _ rfl rest fewer]
      simp [Decoding.advance, serveInOrder, closes, Nat.add_assoc]

/-- However the network cuts a pipeline of requests, each of them is executed once and in order, up
to the first that closes the connection. -/
theorem handle_pipeline (session : NetSession σ) (state : σ) (requests : List Request)
    (reads : Reads (requests.flatMap Request.written)) :
    ((handle session state reads).outputs, (handle session state reads).state.1,
      (handle session state reads).consumed, (handle session state reads).isOpen) =
        serveInOrder session requests state := by
  obtain ⟨plain, alike, observed⟩ := handle_alike session state reads
  rw [Decoding.receive, if_pos rfl] at observed
  have served := observed.trans (drain_requests session requests _ rfl rfl (Nat.lt_succ_self _))
  rw [alike.outputs, alike.states.1, alike.consumed, alike.isOpen]
  simpa [Decoding.observed, Decoding.feed] using served

end Wedb.Net
