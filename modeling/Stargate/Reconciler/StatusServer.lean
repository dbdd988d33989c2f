import Stargate.Base.HttpMessage
import Stargate.Base.JsonLines

/-!
# The status page of the reconciler (`serve`)

The server writes its answers by hand: the first line, the headers, the length of the body in
bytes, and the body. The status is what Redis has under `reconciler:status`, any text.

- `response`: the bytes for a request;
- `status_read_back`: a client finds the status in them as it is in Redis.
-/

namespace Stargate.Reconciler.StatusServer

open Base Base.Http

/-- `json!(...).to_string()` of an object with one string in it. -/
def jsonBody (name value : String) : List Char :=
  Json.print (.object [(name.toList, .string value.toList)])

/-- `req.starts_with("GET /status")`, where `req` is the text of the bytes that the first read has
found, 512 at most. Decoding leaves ASCII as it is and makes no ASCII of anything else. -/
def isStatus (request : Bytes) : Bool :=
  (request.take 512).take 11 == utf8 "GET /status".toList

/-- The answer to a request; `status` is `none` where the command fails, also because there is no
such key. -/
def response (request : Bytes) (status : Option String) : Bytes :=
  let body :=
    if isStatus request then jsonBody "status" (status.getD "unknown")
    else jsonBody "error" "not found"
  let code := if isStatus request then "200 OK" else "404 Not Found"
  utf8 <| "HTTP/1.1 ".toList ++ code.toList
    ++ "\r\nContent-Type: application/json\r\nContent-Length: ".toList
    ++ Nat.toDigits 10 (utf8 body).length
    ++ "\r\nConnection: close\r\n\r\n".toList ++ body

/-! ## What a client finds -/

/-- The answer, as a message. -/
def message (code : String) (body : List Char) : Message where
  start := "HTTP/1.1 ".toList ++ code.toList
  headers :=
    [("Content-Type".toList, "application/json".toList),
      (contentLength, Nat.toDigits 10 (utf8 body).length),
      ("Connection".toList, "close".toList)]
  body

section Client

variable {code : String} {body : List Char}

theorem headers_message : (message code body).headers =
    [("Content-Type".toList, "application/json".toList),
      (contentLength, Nat.toDigits 10 (utf8 body).length),
      ("Connection".toList, "close".toList)] := rfl

theorem text_message : (message code body).text =
    "HTTP/1.1 ".toList ++ code.toList
      ++ "\r\nContent-Type: application/json\r\nContent-Length: ".toList
      ++ Nat.toDigits 10 (utf8 body).length
      ++ "\r\nConnection: close\r\n\r\n".toList ++ body := by
  have htype : "\r\nContent-Type: application/json\r\nContent-Length: ".toList
      = crlf ++ (headerLine ("Content-Type".toList, "application/json".toList)
        ++ (crlf ++ (contentLength ++ [':', ' ']))) := by decide
  have hclose : "\r\nConnection: close\r\n\r\n".toList
      = crlf ++ (headerLine ("Connection".toList, "close".toList) ++ (crlf ++ crlf)) := by decide
  rw [htype, hclose]
  simp only [Message.text, Message.lines, headers_message, List.map_cons, List.map_nil,
    List.flatMap_cons, List.flatMap_nil, List.append_assoc, List.append_nil, List.nil_append,
    headerLine, List.cons_append]
  rfl

/-- A text without control characters, in ASCII. -/
def ascii (cs : List Char) : Bool := cs.all fun c => 32 ≤ c.toNat && c.toNat < 128

theorem isPrintable_of_ascii {cs : List Char} (h : ascii cs = true) : ∀ c ∈ cs, IsPrintable c := by
  intro c hc
  have := List.all_eq_true.mp h c hc
  simp only [Bool.and_eq_true, decide_eq_true_eq] at this
  exact this

theorem ascii_append {cs ds : List Char} (hcs : ascii cs = true) (hds : ascii ds = true) :
    ascii (cs ++ ds) = true := by
  unfold ascii at hcs hds ⊢
  rw [List.all_append, hcs, hds]
  rfl

theorem ascii_toDigits (n : Nat) : ascii (Nat.toDigits 10 n) = true := by
  refine List.all_eq_true.mpr fun c hc => ?_
  have hdigit := isDigit_toDigits c hc
  simp only [Char.isDigit, Bool.and_eq_true, decide_eq_true_eq, UInt32.le_iff_toNat_le] at hdigit
  have hlow : 48 ≤ c.toNat := hdigit.1
  have hhigh : c.toNat ≤ 57 := hdigit.2
  simp only [Bool.and_eq_true, decide_eq_true_eq]
  omega

theorem wellFormed_message (hcode : ascii code.toList = true) : (message code body).WellFormed where
  nonempty line hline := by
    rcases List.mem_cons.mp hline with rfl | hline
    · exact List.append_ne_nil_of_left_ne_nil (by decide) _
    · obtain ⟨h, -, rfl⟩ := List.mem_map.mp hline
      exact List.append_ne_nil_of_right_ne_nil _ (List.cons_ne_nil _ _)
  printable line hline := by
    refine isPrintable_of_ascii ?_
    rcases List.mem_cons.mp hline with rfl | hline
    · exact ascii_append (by decide) hcode
    · rw [headers_message] at hline
      simp only [List.map_cons, List.map_nil, List.mem_cons, List.not_mem_nil, or_false] at hline
      rcases hline with rfl | rfl | rfl
      · decide
      · have hname : ascii contentLength = true := by decide
        have hcolon : ascii [':', ' '] = true := by decide
        exact ascii_append hname (ascii_append hcolon (ascii_toDigits _))
      · decide
  names h hh := by
    simp only [headers_message, List.mem_cons, List.not_mem_nil, or_false] at hh
    rcases hh with rfl | rfl | rfl
    · decide
    · show ':' ∉ contentLength
      decide
    · decide
  values h hh := by
    simp only [headers_message, List.mem_cons, List.not_mem_nil, or_false] at hh
    rcases hh with rfl | rfl | rfl
    · decide
    · intro hspace
      have hdigit := isDigit_toDigits ' ' (List.mem_of_mem_head? hspace)
      cases hdigit
    · decide
  length := by
    have htype : (contentLength == "Content-Type".toList) = false := by decide
    rw [headers_message, List.lookup_cons, htype, List.lookup_cons, beq_self_eq_true]
    rfl

/-- The body of an answer. -/
theorem get_jsonBody (name value : String) : ∃ j, Json.parse (jsonBody name value) = some j ∧
    j.get name.toList = some (.string value.toList) := by
  refine ⟨.object [(name.toList, .string value.toList)], Json.parse_print ⟨trivial, trivial⟩, ?_⟩
  simp [Json.get]

/-- **The status arrives as it is**: a client that goes by the length in the headers finds, for a
request of the status page, the text that Redis has, in the field `status` of a JSON body, and
nothing is left over; for any other request it finds the error. -/
theorem status_read_back (request : Bytes) (status : Option String) :
    ∃ m j, read (response request status) = some m ∧
      response request status = utf8 m.text ∧ Json.parse m.body = some j ∧
      if isStatus request then
        m.start = "HTTP/1.1 200 OK".toList ∧
          j.get "status".toList = some (.string (status.getD "unknown").toList)
      else
        m.start = "HTTP/1.1 404 Not Found".toList ∧
          j.get "error".toList = some (.string "not found".toList) := by
  cases hstatus : isStatus request with
  | true =>
    obtain ⟨j, hparse, hget⟩ := get_jsonBody "status" (status.getD "unknown")
    have hwell : (message "200 OK" (jsonBody "status" (status.getD "unknown"))).WellFormed :=
      wellFormed_message (by decide)
    have htext : response request status
        = utf8 (message "200 OK" (jsonBody "status" (status.getD "unknown"))).text := by
      rw [text_message, response, hstatus]
      rfl
    have hread := read_text hwell []
    rw [List.append_nil, ← htext] at hread
    exact ⟨_, j, hread, htext, hparse, if_pos rfl ▸ ⟨rfl, hget⟩⟩
  | false =>
    obtain ⟨j, hparse, hget⟩ := get_jsonBody "error" "not found"
    have hwell : (message "404 Not Found" (jsonBody "error" "not found")).WellFormed :=
      wellFormed_message (by decide)
    have htext : response request status
        = utf8 (message "404 Not Found" (jsonBody "error" "not found")).text := by
      rw [text_message, response, hstatus]
      rfl
    have hread := read_text hwell []
    rw [List.append_nil, ← htext] at hread
    exact ⟨_, j, hread, htext, hparse, rfl, hget⟩

end Client

end Stargate.Reconciler.StatusServer
