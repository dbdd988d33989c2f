import Mathlib.Data.List.ReduceOption
import Stargate.Base.JsonLines
import Stargate.Base.Transition

/-!
# One id for each request (`CorrelationMiddleware`, `AppLogger`, `HttpExceptionFilter`)

The middleware takes the id of a request from a header, or makes one, and keeps it for all the code
that runs for the request. The logger writes it into every line and the filter into the answer to
an exception.

- `catchException`: the answer of the filter;
- `entry`: what the logger writes;
- `server`: requests side by side, each with code that logs and throws at any time;
- `requests_traced`: the lines are read back, one for each call of the logger, and the lines, the
  header and the answer of a request have one id, which lines leave out where it is empty.
-/

namespace Stargate.Http

open Base

/-! ## The filter -/

/-- What `exception.getResponse()` is. -/
inductive Response where
  | text (s : String)
  /-- An object with a list under `message`. -/
  | messages (message : List String) (code : Option String)
  /-- An object; `message` is what `String` makes of the field, and `code` is there if it is a
  string. -/
  | object (message code : Option String)
  | other
  deriving DecidableEq

inductive Exception where
  /-- An `HttpException`. -/
  | http (status : Nat) (response : Response) (message : String)
  | other
  deriving DecidableEq

structure ErrorEnvelope where
  statusCode : Nat
  message : String
  code : String
  traceId : Option String
  deriving DecidableEq

def toCode (status : Nat) : String :=
  match status with
  | 400 => "BAD_REQUEST"
  | 401 => "UNAUTHORIZED"
  | 403 => "FORBIDDEN"
  | 404 => "NOT_FOUND"
  | 409 => "CONFLICT"
  | 422 => "UNPROCESSABLE_ENTITY"
  | 429 => "TOO_MANY_REQUESTS"
  | 500 => "INTERNAL_ERROR"
  | 502 => "BAD_GATEWAY"
  | 503 => "SERVICE_UNAVAILABLE"
  | _ => "INTERNAL_ERROR"

/-- The message and the code of a response. -/
def Response.read (fallback : String) : Response → String × Option String
  | .text s => (s, none)
  | .messages message code => (String.intercalate "; " message, code)
  | .object message code => (message.getD fallback, code)
  | .other => ("Internal server error", none)

/-- `catch(exception, host)`. -/
def catchException (correlationId header : Option String) : Exception → ErrorEnvelope
  | .http status response fallback =>
    let (message, code) := response.read fallback
    { statusCode := status
      message
      code := (code.filter (· ≠ "INTERNAL_ERROR")).getD (toCode status)
      traceId := correlationId.or header }
  | .other =>
    { statusCode := 500
      message := "Internal server error"
      code := "INTERNAL_ERROR"
      traceId := correlationId.or header }

/-! ## The logger -/

inductive Level where
  | log | error | warn | debug | verbose
  deriving DecidableEq

def Level.text : Level → String
  | .log => "log"
  | .error => "error"
  | .warn => "warn"
  | .debug => "debug"
  | .verbose => "verbose"

/-- The arguments of `write`, `none` where they are undefined. The message is the value that
`JSON.stringify` makes of it. -/
structure Record where
  level : Level
  message : Option Json
  context : Option String
  trace : Option String

/-- `log(message, context)`. -/
def log (message : Option Json) (context : Option String) : Record := ⟨.log, message, context, none⟩

/-- `error(message, trace, context)`. -/
def error (message : Option Json) (trace context : Option String) : Record :=
  ⟨.error, message, context, trace⟩

/-- `warn(message, context)`. -/
def warn (message : Option Json) (context : Option String) : Record :=
  ⟨.warn, message, context, none⟩

/-- `debug(message, context)`. -/
def debug (message : Option Json) (context : Option String) : Record :=
  ⟨.debug, message, context, none⟩

/-- `verbose(message, context)`. -/
def verbose (message : Option Json) (context : Option String) : Record :=
  ⟨.verbose, message, context, none⟩

/-- A field that `JSON.stringify` leaves out where it is undefined. -/
def field (name : String) (value : Option Json) : Option (List Char × Json) :=
  value.map fun value => (name.toList, value)

/-- A string, as a field. -/
def text (s : String) : Json := .string s.toList

/-- `if (text)`. -/
def truthy (s : Option String) : Option String := s.filter (· ≠ "")

/-- The `entry` of `write`. -/
def entry (timestamp : String) (correlationId : Option String) (r : Record) : Json :=
  .object <| List.reduceOption
    [field "timestamp" (some (text timestamp)),
      field "level" (some (text r.level.text)),
      field "message" r.message,
      field "context" (r.context.map text),
      field "correlationId" ((truthy correlationId).map text),
      field "trace" ((truthy r.trace).map text)]

/-- The string in a field of a value that has been read. -/
def textAt (name : String) : Json → Option String
  | .object fields =>
    match fields.find? fun f => f.1 == name.toList with
    | some (_, .string s) => some (String.ofList s)
    | _ => none
  | _ => none

/-! ## Requests -/

/-- Standard output; the store of `AsyncLocalStorage` for the code of each request, the header that
the request came with and the one of its response; and the answers of the filter. -/
structure World where
  out : List Char
  ids : Nat → Option String
  headers : Nat → Option String
  sent : Nat → Option String
  answers : Nat → Option ErrorEnvelope

inductive Label where
  /-- `use(req, res, next)` of the middleware, with `randomUUID()`. -/
  | use (k : Nat) (header : Option String) (uuid : String)
  /-- A call of the logger, from the code of a request or from elsewhere. -/
  | log (k : Option Nat) (timestamp : String) (r : Record)
  /-- The handler of a request throws. -/
  | throw (k : Nat) (e : Exception)

/-- Requests side by side. -/
def server : Lts World Label where
  step w
    | .use k header uuid =>
      match w.ids k with
      | none =>
        let correlationId := header.getD uuid
        some { w with
          ids := Function.update w.ids k (some correlationId)
          headers := Function.update w.headers k header
          sent := Function.update w.sent k (some correlationId) }
      | some _ => none
    | .log none timestamp r =>
      some { w with out := w.out ++ (Json.print (entry timestamp none r) ++ ['\n']) }
    | .log (some k) timestamp r =>
      match w.ids k with
      | some id =>
        some { w with out := w.out ++ (Json.print (entry timestamp (some id) r) ++ ['\n']) }
      | none => none
    | .throw k e =>
      match w.ids k, w.answers k with
      | some id, none =>
        some { w with
          answers := Function.update w.answers k
            (some (catchException (some id) (w.headers k) e)) }
      | _, _ => none

/-- No request yet. -/
def start : World := ⟨[], fun _ => none, fun _ => none, fun _ => none, fun _ => none⟩

/-! ## What a run shows -/

/-- The id that a request came with, or that was made for it. -/
def idOf (steps : List Label) (k : Nat) : Option String :=
  steps.findSome? fun
    | .use j header uuid => if j = k then some (header.getD uuid) else none
    | _ => none

/-- What each step after others gives. -/
def along {α : Type} (f : List Label → Label → List α) (done : List Label) : List Label → List α
  | [] => []
  | a :: rest => f done a ++ along f (done ++ [a]) rest

/-- The entry of a step after others. -/
def entryOf (done : List Label) : Label → List Json
  | .log k timestamp r => [entry timestamp (k.bind (idOf done)) r]
  | _ => []

/-- The entries of a run. -/
def entries (steps : List Label) : List Json := along entryOf [] steps

/-- The id that a call of the logger has to show, unless it is empty: that of its request. -/
def loggedId (done : List Label) : Label → List (Option String)
  | .log k _ _ => [(k.bind (idOf done)).filter (· ≠ "")]
  | _ => []

def loggedIds (steps : List Label) : List (Option String) := along loggedId [] steps

/-- The message of the step is a value that can be printed. -/
def Label.Printable : Label → Prop
  | .log _ _ r => ∀ v ∈ r.message, v.Printable
  | _ => True

section Runs

variable {done steps : List Label} {a : Label} {s s' : World} {k : Nat}

theorem along_append {α : Type} (f : List Label → Label → List α) (done as bs : List Label) :
    along f done (as ++ bs) = along f done as ++ along f (done ++ as) bs := by
  induction as generalizing done with
  | nil => simp [along]
  | cons a as ih => simp [along, ih]

theorem idOf_append (done as : List Label) (k : Nat) :
    idOf (done ++ as) k = (idOf done k).or (idOf as k) := List.findSome?_append

theorem printable_of_field {name : String} {value : Option Json} {f : List Char × Json}
    (hvalue : ∀ v ∈ value, v.Printable) (hf : some f = field name value) : f.2.Printable := by
  obtain ⟨v, hv, rfl⟩ := Option.map_eq_some_iff.mp hf.symm
  exact hvalue v hv

/-- What is written can be read if the message can. -/
theorem printable_entry {timestamp : String} {correlationId : Option String} {r : Record}
    (h : ∀ v ∈ r.message, v.Printable) : (entry timestamp correlationId r).Printable := by
  have hfields : ∀ fields : List (List Char × Json), (∀ f ∈ fields, f.2.Printable) →
      Json.PrintableFields fields := by
    intro fields hall
    induction fields with
    | nil => trivial
    | cons f fields ih =>
      exact ⟨hall f List.mem_cons_self, ih fun g hg => hall g (List.mem_cons_of_mem f hg)⟩
  have htext : ∀ s : Option String, ∀ v ∈ s.map text, v.Printable := by
    intro s v hv
    obtain ⟨s, -, rfl⟩ := Option.map_eq_some_iff.mp hv
    trivial
  refine hfields _ fun f hf => ?_
  simp only [List.reduceOption_mem_iff, List.mem_cons, List.not_mem_nil, or_false] at hf
  rcases hf with hf | hf | hf | hf | hf | hf
  · exact printable_of_field (htext (some timestamp)) hf
  · exact printable_of_field (htext (some r.level.text)) hf
  · exact printable_of_field h hf
  · exact printable_of_field (htext _) hf
  · exact printable_of_field (htext _) hf
  · exact printable_of_field (htext _) hf

theorem find?_field {name : String} {value : Option Json} {rest : List (Option (List Char × Json))}
    {p : List Char × Json → Bool} (h : ∀ v, p (name.toList, v) = false) :
    (field name value :: rest).reduceOption.find? p = rest.reduceOption.find? p := by
  cases value with
  | none => rfl
  | some v => exact List.find?_cons_of_neg (by rw [h v]; exact Bool.false_ne_true)

/-- An entry shows the id that it is written with, unless this is empty. -/
theorem textAt_entry (timestamp : String) (correlationId : Option String) (r : Record) :
    textAt "correlationId" (entry timestamp correlationId r) = truthy correlationId := by
  unfold textAt entry
  dsimp only
  rw [find?_field fun _ => rfl, find?_field fun _ => rfl, find?_field fun _ => rfl,
    find?_field fun _ => rfl]
  cases truthy correlationId with
  | some id =>
    have hfound (rest : List (Option (List Char × Json))) :
        (field "correlationId" (some (text id)) :: rest).reduceOption.find?
          (fun f => f.1 == "correlationId".toList) = some ("correlationId".toList, text id) :=
      List.find?_cons_of_pos rfl
    rw [Option.map_some, hfound]
    exact congrArg some String.ofList_toList
  | none =>
    -- the trace stands under another name
    cases truthy r.trace with
    | some trace => rfl
    | none => rfl

theorem ids_of_entries (as done : List Label) :
    (along entryOf done as).map (textAt "correlationId") = along loggedId done as := by
  induction as generalizing done with
  | nil => rfl
  | cons a as ih =>
    rw [along, along, List.map_append, ih]
    cases a with
    | log k timestamp r => exact congrArg (fun id => [id] ++ _) (textAt_entry _ _ r)
    | use k header uuid => rfl
    | throw k e => rfl

/-- The state after a run, as its steps say. -/
structure Traced (done : List Label) (s : World) : Prop where
  ids : s.ids = idOf done
  sent : s.sent = idOf done
  out : s.out = Json.lines (entries done)
  answers : ∀ k envelope, s.answers k = some envelope →
    (idOf done k).isSome = true ∧ envelope.traceId = idOf done k

theorem traced_start : Traced [] start := ⟨rfl, rfl, rfl, nofun⟩

/-- The entries after one more step. -/
theorem lines_concat (done : List Label) (a : Label) :
    Json.lines (entries (done ++ [a]))
      = Json.lines (entries done) ++ Json.lines (entryOf done a) := by
  rw [entries, along_append, List.nil_append, along, along, List.append_nil, Json.lines,
    List.flatMap_append]
  rfl

/-- A step that is not the first of a request. -/
theorem idOf_concat (hnot : ∀ j header uuid, a ≠ .use j header uuid) :
    idOf (done ++ [a]) = idOf done := by
  funext k
  cases a with
  | use j header uuid => exact absurd rfl (hnot j header uuid)
  | log j timestamp r => rw [idOf_append]; exact Option.or_none
  | throw j e => rw [idOf_append]; exact Option.or_none

theorem idOf_use {j : Nat} {header : Option String} {uuid : String} (hnew : idOf done j = none) :
    idOf (done ++ [.use j header uuid])
      = Function.update (idOf done) j (some (header.getD uuid)) := by
  funext k
  rw [idOf_append]
  by_cases hk : k = j
  · rw [hk, hnew, Function.update_self]
    simp [idOf]
  · rw [Function.update_of_ne hk]
    simp [idOf, Ne.symm hk]

theorem traced_step (h : Traced done s) (hstep : server.step s a = some s') :
    Traced (done ++ [a]) s' := by
  cases a with
  | use j header uuid =>
    simp only [server] at hstep
    split at hstep
    · next hnew =>
      cases hstep
      rw [h.ids] at hnew
      refine ⟨?_, ?_, ?_, fun k envelope hk => ?_⟩
      · rw [idOf_use hnew, ← h.ids]
      · rw [idOf_use hnew, ← h.sent]
      · rw [lines_concat, ← h.out]
        exact (List.append_nil _).symm
      · -- the request is another one
        obtain ⟨hsome, htrace⟩ := h.answers k envelope hk
        have hne : k ≠ j := by
          rintro rfl
          rw [hnew] at hsome
          cases hsome
        rw [idOf_use hnew, Function.update_of_ne hne]
        exact ⟨hsome, htrace⟩
    · cases hstep
  | log j timestamp r =>
    have hid : idOf (done ++ [.log j timestamp r]) = idOf done :=
      idOf_concat fun _ _ _ => Label.noConfusion
    have hout : s'.ids = s.ids ∧ s'.sent = s.sent ∧ s'.answers = s.answers ∧
        s'.out = s.out ++ (Json.print (entry timestamp (j.bind (idOf done)) r) ++ ['\n']) := by
      cases j with
      | none =>
        cases hstep
        exact ⟨rfl, rfl, rfl, rfl⟩
      | some j =>
        simp only [server] at hstep
        split at hstep
        · next id hj =>
          cases hstep
          rw [Option.bind_some, ← h.ids, hj]
          exact ⟨rfl, rfl, rfl, rfl⟩
        · cases hstep
    obtain ⟨hids, hsent, hanswers, hout⟩ := hout
    refine ⟨hid ▸ hids.trans h.ids, hid ▸ hsent.trans h.sent, ?_, ?_⟩
    · rw [lines_concat, ← h.out, hout, Json.lines, entryOf, List.flatMap_singleton]
    · rw [hid, hanswers]
      exact h.answers
  | throw j e =>
    have hid : idOf (done ++ [.throw j e]) = idOf done :=
      idOf_concat fun _ _ _ => Label.noConfusion
    simp only [server] at hstep
    split at hstep
    · next id hj _ =>
      cases hstep
      refine ⟨hid ▸ h.ids, hid ▸ h.sent, ?_, fun k envelope hk => ?_⟩
      · rw [lines_concat, ← h.out]
        exact (List.append_nil _).symm
      · rw [hid]
        by_cases hkj : k = j
        · dsimp only at hk
          rw [hkj, Function.update_self] at hk
          obtain rfl := Option.some.inj hk
          rw [hkj, ← h.ids, hj]
          cases e <;> exact ⟨rfl, rfl⟩
        · dsimp only at hk
          rw [Function.update_of_ne hkj] at hk
          exact h.answers k envelope hk
    · cases hstep

/-- **Every run can be traced**: standard output is read back as one entry for each call of the
logger, in order, whatever the texts in it hold, and also while a line is being written. The
header of the response to a request and the answer of the filter have the id that the request came
with, or that was made for it, and so have the entries from its code, which have none where this
id is empty. -/
theorem requests_traced (hrun : server.run start steps = some s)
    (hprint : ∀ a ∈ steps, a.Printable) {rest : List Char} (hrest : '\n' ∉ rest) :
    Json.readLines (s.out ++ rest) = (entries steps).map some ∧
      (entries steps).map (textAt "correlationId") = loggedIds steps ∧ s.sent = idOf steps ∧
      ∀ k envelope, s.answers k = some envelope →
        (idOf steps k).isSome = true ∧ envelope.traceId = idOf steps k := by
  have h : Traced steps s := server.inv_of_history (I := Traced) traced_start
    (fun _ _ _ _ _ h hstep => traced_step h hstep) hrun
  have hentries : ∀ v ∈ entries steps, v.Printable := by
    suffices hall : ∀ as done, (∀ a ∈ as, a.Printable) → ∀ v ∈ along entryOf done as, v.Printable
      from hall steps [] hprint
    intro as
    induction as with
    | nil => exact fun _ _ _ hv => nomatch hv
    | cons a as ih =>
      intro done hall v hv
      rcases List.mem_append.mp hv with hv | hv
      · cases a with
        | log k timestamp r =>
          obtain rfl := List.mem_singleton.mp hv
          exact printable_entry (hall _ List.mem_cons_self)
        | use k header uuid => cases hv
        | throw k e => cases hv
      · exact ih _ (fun b hb => hall b (List.mem_cons_of_mem a hb)) v hv
  refine ⟨?_, ids_of_entries steps [], h.sent, h.answers⟩
  rw [h.out]
  exact Json.readLines_lines hentries hrest

/-- A request with an id and one without, which logs a text of two lines, and one with an empty
id. -/
def threeRequests : List Label :=
  [.use 0 (some "a1") "u0", .use 1 none "u1",
    .log (some 1) "2024-01-01T00:00:00.000Z" (warn (some (text "one\ntwo")) none),
    .throw 0 (.http 404 (.text "Not found") "Not found"), .use 2 (some "") "u2",
    .log (some 2) "2024-01-01T00:00:01.000Z" (log (some (text "three")) none)]

theorem requests_traced_three : ∃ s, server.run start threeRequests = some s ∧
    Json.readLines (s.out ++ "\x7b".toList) = (entries threeRequests).map some ∧
    (entries threeRequests).map (textAt "correlationId") = [some "u1", none] ∧
    s.sent = idOf threeRequests := by
  obtain ⟨s, hrun⟩ : ∃ s, server.run start threeRequests = some s := ⟨_, rfl⟩
  have hprint : ∀ a ∈ threeRequests, a.Printable := by
    simp [threeRequests, Label.Printable, warn, log, text, Json.Printable]
  have hrest : '\n' ∉ "\x7b".toList := by decide
  obtain ⟨hlines, hids, hsent, -⟩ := requests_traced hrun hprint hrest
  exact ⟨s, hrun, hlines, hids, hsent⟩

end Runs

end Stargate.Http
