import Mocop.Web.Envelopes

/-!
# `Mocop.Web.Pipeline`: no body is read as a request

A connection carries one message after the other, and the server finds the next head where it
stopped to read. A handler that leaves a declared body unread would take its bytes for a request
that no client sent. `serve` is the loop over a connection: whatever the messages are, as long as
each declares its body as HTTP/1.1 asks, the requests that the server answers are those of a first
part of the messages (`serve_prefix`). The step is `read_of_open`: the connection stays open only
behind a read whose declared body is empty.

How the base class reads a head is a parameter: a function that gives a request and the rest of the
bytes.
-/

set_option autoImplicit false

namespace Mocop.Web

/-! ### The loop over a connection -/

/-- How a head is read: the request and the bytes behind it. There is none in no bytes. -/
structure HeadReader where
  read : List UInt8 → Option (Request × List UInt8)
  read_nil : read [] = none

section Loop
variable {W : Type} (server : Server W) (reader : HeadReader)

/-- Whether a connection stays open after the reply to a request that would leave it open. An
aborted request has no reply. -/
def staysOpen (persistent : Bool) (reply : Option Reply) : Bool :=
  persistent && reply.any fun reply => !reply.closes

/-- `handle`: the requests that are answered on a connection, in their order, with at most `fuel`
of them. What is left of the bytes is what a body would be read from. -/
def serve : ℕ → List UInt8 → StateM W (List Request)
  | 0, _ => return []
  | fuel + 1, bytes =>
    match reader.read bytes with
    | none => return []
    | some (request, rest) => do
      let reply ← answer server { request with body := rest }
      if staysOpen request.persistent reply then
        return request :: (← serve fuel rest)
      else return [request]

end Loop

/-! ### Messages -/

/-- Whether a request frames a body of some length as HTTP/1.1 asks: with a transfer encoding, with
lengths in digits that all say the same, or without either and then without a body. -/
def Request.Frames (request : Request) (length : ℕ) : Prop :=
  request.headers.get "Transfer-Encoding" ≠ none
  ∨ if request.headers.getAll "Content-Length" = [] then length = 0
    else ∀ declared ∈ request.headers.getAll "Content-Length",
      (pyStrip declared).toList.all Char.isDigit = true
        ∧ Nat.ofDigitChars 10 (pyStrip declared).toList 0 = length

/-- A message of a client: the bytes of its head, the request that they say, and a body that is
framed. -/
structure Message (reader : HeadReader) where
  head : List UInt8
  request : Request
  body : List UInt8
  reads : ∀ rest, reader.read (head ++ rest) = some (request, rest)
  framed : request.Frames body.length

/-- The bytes of a message. -/
def Message.bytes {reader : HeadReader} (message : Message reader) : List UInt8 :=
  message.head ++ message.body

/-! ### What leaves a connection open -/

section Open
variable {W : Type} {server : Server W} {request : Request}

/-- Whether an answer closes the connection, or is none. -/
def Closing (answered : Option Reply) : Prop := ∀ reply ∈ answered, reply.closes = true

theorem closing_some {reply : Reply} (h : reply.closes = true) : Closing (some reply) :=
  fun _ hreply => Option.some.inj hreply ▸ h

/-- A target that cannot be split closes the connection. -/
theorem closes_of_splitRequestTarget {gate : Gate} {reply : Reply}
    (h : splitRequestTarget gate request = .error reply) : reply.closes = true := by
  unfold splitRequestTarget at h
  split at h
  · cases h
  · cases h
    rfl

/-- A write closes the connection. -/
theorem closing_doPost : Always Closing (doPost server request) := by
  unfold doPost
  cases hsplit : splitRequestTarget server.toGate request with
  | error reply => exact always_pure (closing_some (closes_of_splitRequestTarget hsplit))
  | ok target =>
    refine always_then fun refusal => ?_
    cases refusal with
    | some refusal => exact always_pure (closing_some rfl)
    | none =>
      dsimp only
      split
      · exact always_pure (closing_some rfl)
      · split
        · next reply _ =>
          refine always_pure fun closed hclosed => ?_
          obtain ⟨reply, -, rfl⟩ := Option.map_eq_some_iff.mp hclosed
          rfl
        · split
          · exact always_pure (closing_some rfl)
          · exact always_then fun reply => always_pure (closing_some rfl)

/-- A request of another method closes the connection. -/
theorem closing_unsupportedMethod :
    Always (fun reply => reply.closes = true) (unsupportedMethod server request) := by
  unfold unsupportedMethod
  cases hsplit : splitRequestTarget server.toGate request with
  | error reply => exact always_pure (closes_of_splitRequestTarget hsplit)
  | ok target =>
    refine always_then fun refusal => ?_
    cases refusal with
    | some refusal => exact always_pure rfl
    | none => exact always_pure rfl

/-- The reply to a request that is no read, or declares a body, closes the connection. -/
theorem closing_answer (h : request.command = "GET" ∨ request.command = "HEAD" →
    refuseRequestBody request = true) : Always Closing (answer server request) := by
  unfold answer
  cases hparse : parseRequest server.toGate request with
  | some reply =>
    refine always_pure (closing_some ?_)
    unfold parseRequest at hparse
    dsimp only at hparse
    split at hparse
    · cases hparse
      rfl
    · cases hparse
  | none =>
    refine always_ite (fun hmethod => ?_) fun _ => ?_
    · have hread : Always (fun reply => reply.closes = true)
          (respondToReadRequest server request) := by
        unfold respondToReadRequest
        exact always_ite (fun _ => always_pure rfl) fun hbody => absurd (h hmethod) hbody
      exact always_bind hread fun reply hreply => always_pure (closing_some hreply)
    refine always_ite (fun _ => closing_doPost) fun _ => ?_
    refine always_ite (fun _ => always_pure (closing_some rfl)) fun _ => ?_
    exact always_bind closing_unsupportedMethod fun reply hreply =>
      always_pure (closing_some hreply)

end Open

/-! ### Framing -/

/-- A number of zeros only. -/
theorem ofDigitChars_zeros {digits : List Char} (h : digits.all (· == '0') = true) :
    Nat.ofDigitChars 10 digits 0 = 0 := by
  induction digits with
  | nil => rfl
  | cons digit rest ih =>
    rw [List.all_cons, Bool.and_eq_true, beq_iff_eq] at h
    obtain ⟨rfl, hrest⟩ := h
    rw [Nat.ofDigitChars_cons]
    exact ih hrest

/-- A body that a read may declare is empty. -/
theorem length_of_accepted {request : Request} {length : ℕ}
    (haccepted : refuseRequestBody request = false) (hframes : request.Frames length) :
    length = 0 := by
  unfold refuseRequestBody at haccepted
  cases hencoding : request.headers.get "Transfer-Encoding" with
  | some encoding =>
    rw [hencoding] at haccepted
    cases haccepted
  | none =>
    rw [hencoding] at haccepted
    rcases hframes with hencoded | hlengths
    · exact absurd hencoding hencoded
    cases hdeclared : request.headers.getAll "Content-Length" with
    | nil =>
      rw [hdeclared] at hlengths
      exact hlengths
    | cons declared more =>
      rw [hdeclared] at haccepted hlengths
      cases more with
      | cons second others => cases haccepted
      | nil =>
        -- The one length that is let through has zeros only.
        simp only [Bool.not_eq_false', Bool.and_eq_true, decide_eq_true_eq] at haccepted
        obtain ⟨-, hvalue⟩ := hlengths declared List.mem_cons_self
        exact hvalue.symm.trans (ofDigitChars_zeros haccepted.2)

/-- The connection stays open only behind a read whose declared body is empty. -/
theorem read_of_open {W : Type} {server : Server W} {request : Request} {length : ℕ}
    {persistent : Bool} {world : W}
    (hopen : staysOpen persistent ((answer server request).run world).1 = true)
    (hframes : request.Frames length) :
    (request.command = "GET" ∨ request.command = "HEAD") ∧ length = 0 := by
  have hstays := (Bool.and_eq_true_iff.mp hopen).2
  obtain ⟨reply, hreply, hstays⟩ := (Option.any_eq_true ..).mp hstays
  by_contra hother
  have hcloses : reply.closes = true := by
    refine closing_answer (fun hread => ?_) world reply hreply
    by_contra haccepted
    exact hother ⟨hread, length_of_accepted (Bool.eq_false_of_not_eq_true haccepted) hframes⟩
  rw [hcloses] at hstays
  cases hstays

section Steps
variable {W : Type} {server : Server W} {reader : HeadReader} {request : Request}
  {bytes rest : List UInt8} {fuel : ℕ} {world : W}

/-- One more request is answered, and the loop goes on with the rest of the bytes. -/
theorem serve_of_open (hread : reader.read bytes = some (request, rest))
    (hopen : staysOpen request.persistent
      ((answer server { request with body := rest }).run world).1 = true) :
    ((serve server reader (fuel + 1) bytes).run world).1
      = request :: ((serve server reader fuel rest).run
          ((answer server { request with body := rest }).run world).2).1 := by
  rw [serve, hread]
  dsimp only
  rw [StateT.run_bind]
  dsimp only [Id.run, Bind.bind]
  rw [if_pos hopen]
  rfl

/-- The request that closes the connection is the last one. -/
theorem serve_of_closed (hread : reader.read bytes = some (request, rest))
    (hclosed : staysOpen request.persistent
      ((answer server { request with body := rest }).run world).1 = false) :
    ((serve server reader (fuel + 1) bytes).run world).1 = [request] := by
  rw [serve, hread]
  dsimp only
  rw [StateT.run_bind]
  dsimp only [Id.run, Bind.bind]
  rw [hclosed]
  rfl

end Steps

/-- A request behind which the connection stays open is a read, and nothing is left of its
message. -/
theorem Message.read_of_open {W : Type} {server : Server W} {reader : HeadReader}
    (message : Message reader) {rest : List UInt8} {world : W}
    (hopen : staysOpen message.request.persistent
      ((answer server { message.request with body := message.body ++ rest }).run world).1 = true) :
    (message.request.command = "GET" ∨ message.request.command = "HEAD") ∧ message.body = [] := by
  have hframed : Request.Frames { message.request with body := message.body ++ rest }
      message.body.length := message.framed
  exact (Web.read_of_open hopen hframed).imp_right List.length_eq_zero_iff.mp

/-- Whatever messages a client sends, the requests that the server answers on the connection are
those of a first part of them, and the connection stays open only behind a read without a body. -/
theorem serve_prefix {W : Type} (server : Server W) (reader : HeadReader)
    (messages : List (Message reader)) (fuel : ℕ) (world : W) :
    ((serve server reader fuel (messages.flatMap Message.bytes)).run world).1
        <+: messages.map Message.request
      ∧ ∀ (message : Message reader) (rest : List UInt8) (world : W),
        staysOpen message.request.persistent ((answer server
          { message.request with body := message.body ++ rest }).run world).1 = true →
        (message.request.command = "GET" ∨ message.request.command = "HEAD")
          ∧ message.body = [] := by
  refine ⟨?_, fun message rest world hopen => message.read_of_open hopen⟩
  induction fuel generalizing messages world with
  | zero => exact List.nil_prefix
  | succ fuel ih =>
    cases messages with
    | nil =>
      rw [List.flatMap_nil, serve, reader.read_nil]
      exact List.nil_prefix
    | cons message rest =>
      have hread : reader.read ((message :: rest).flatMap Message.bytes)
          = some (message.request, message.body ++ rest.flatMap Message.bytes) := by
        rw [List.flatMap_cons, Message.bytes, List.append_assoc]
        exact message.reads _
      cases hopen : staysOpen message.request.persistent ((answer server { message.request with
          body := message.body ++ rest.flatMap Message.bytes }).run world).1 with
      | false =>
        rw [serve_of_closed hread hopen]
        exact ⟨rest.map Message.request, rfl⟩
      | true =>
        -- Nothing is left of the message, so that the loop goes on with the next one.
        rw [serve_of_open hread hopen, List.map_cons, List.cons_prefix_cons,
          (message.read_of_open hopen).2, List.nil_append]
        exact ⟨rfl, ih rest _⟩

/-! ### A body that looks like a request -/

private def healthHead : List UInt8 :=
  "GET /healthz HTTP/1.1\r\nHost: localhost\r\n\r\n".toUTF8.toList

private def restartHead : List UInt8 :=
  ("POST /api/service/restart HTTP/1.1\r\nHost: localhost\r\n"
    ++ "Content-Length: 42\r\n\r\n").toUTF8.toList

private def healthRequest : Request where
  command := "GET"
  target := "/healthz"
  version := "HTTP/1.1"
  headers := ⟨[("Host", "localhost")]⟩
  persistent := true
  body := []

private def framedRestart : Request :=
  { restartRequest with headers := ⟨[("Host", "localhost"), ("Content-Length", "42")]⟩ }

/-- A reader that knows two heads. -/
private def twoHeads : HeadReader where
  read bytes :=
    if healthHead.isPrefixOf bytes then some (healthRequest, bytes.drop healthHead.length)
    else if restartHead.isPrefixOf bytes then
      some (framedRestart, bytes.drop restartHead.length)
    else none
  read_nil := by decide +kernel

private theorem reads_healthHead (rest : List UInt8) :
    twoHeads.read (healthHead ++ rest) = some (healthRequest, rest) := by
  have hprefix : healthHead.isPrefixOf (healthHead ++ rest) = true :=
    List.isPrefixOf_iff_prefix.mpr (List.prefix_append _ _)
  show (if _ then _ else _) = _
  rw [if_pos hprefix, List.drop_left]

private theorem reads_restartHead (rest : List UInt8) :
    twoHeads.read (restartHead ++ rest) = some (framedRestart, rest) := by
  have hprefix : restartHead.isPrefixOf (restartHead ++ rest) = true :=
    List.isPrefixOf_iff_prefix.mpr (List.prefix_append _ _)
  have hother : healthHead.isPrefixOf (restartHead ++ rest) = false := by
    have hfirst : healthHead = 71 :: healthHead.tail ∧ restartHead = 80 :: restartHead.tail := by
      decide +kernel
    rw [hfirst.1, hfirst.2]
    rfl
  show (if _ then _ else _) = _
  rw [hother, if_neg Bool.false_ne_true, if_pos hprefix, List.drop_left]

/-- A read, and a write whose body is the bytes of a read. -/
private def smuggling : List (Message twoHeads) :=
  [{ head := healthHead
     request := healthRequest
     body := []
     reads := reads_healthHead
     framed := .inr rfl },
   { head := restartHead
     request := framedRestart
     body := healthHead
     reads := reads_restartHead
     framed := .inr (by decide +kernel) }]

/-- The read and the write are answered, and the body of the write is not. -/
theorem serve_prefix_smuggling :
    ((serve idleServer twoHeads 3 (smuggling.flatMap Message.bytes)).run ()).1
        <+: [healthRequest, framedRestart]
      ∧ (((serve idleServer twoHeads 3 (smuggling.flatMap Message.bytes)).run ()).1.map
          Request.command) = ["GET", "POST"] := by
  have hanswered := serve_prefix idleServer twoHeads smuggling 3 ()
  exact ⟨hanswered.1, by decide +kernel⟩

end Mocop.Web
