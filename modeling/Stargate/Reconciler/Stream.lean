import Mathlib.Order.Monotone.Basic
import Mathlib.Order.Nat
import Stargate.Base.Transition
import Stargate.Reconciler.Phases

/-!
# One process and its cursor (`stream.rs`, `main.rs`)

`main` reads the cursor from the database once. `run_with_backoff` then makes
attempts from that cursor: each asks Horizon for the payments after it and calls
`process_payment` on them in order, until one fails and the next attempt starts from
the same cursor again. `process_payment` saves the paging token of a payment that it
has recorded.

- `Horizon`: the sequence of payments, of which more and more are ingested;
- `stream`: the steps of the process, statement by statement, with a failure or a
  crash possible at any of them; `stream_spec`: what each of them reads and leaves.
-/

namespace Stargate.Reconciler

open Base

/-- The payments of the treasury account in stream order, with the order of paging
tokens. -/
structure Horizon where
  payments : ℕ → HorizonPayment
  /-- The place in the history of the network that a paging token stands for. -/
  position : String → ℕ
  increasing : StrictMono fun k => position (payments k).pagingToken
  /-- `now` is no paging token. -/
  not_now : ∀ k, (payments k).pagingToken ≠ "now"

namespace Horizon

variable (h : Horizon)

/-- The paging token of the `k`-th payment. -/
def token (k : ℕ) : String := (h.payments k).pagingToken

/-- The payments strictly after the cursor are those from `first` on. -/
def Resumes (cursor : String) (first : ℕ) : Prop :=
  (∀ k < first, h.position (h.token k) ≤ h.position cursor) ∧
    h.position cursor < h.position (h.token first)

instance (cursor : String) (first : ℕ) : Decidable (h.Resumes cursor first) :=
  inferInstanceAs (Decidable (_ ∧ _))

variable {h}

theorem position_lt {j k : ℕ} : h.position (h.token j) < h.position (h.token k) ↔ j < k :=
  h.increasing.lt_iff_lt

theorem position_le {j k : ℕ} : h.position (h.token j) ≤ h.position (h.token k) ↔ j ≤ k :=
  h.increasing.le_iff_le

theorem Resumes.le_iff {cursor : String} {first k : ℕ} (hc : h.Resumes cursor first) :
    h.position (h.token k) ≤ h.position cursor ↔ k < first := by
  refine ⟨fun hle => ?_, hc.1 k⟩
  by_contra hk
  have hle' : h.position (h.token first) ≤ h.position (h.token k) :=
    position_le.mpr (Nat.le_of_not_lt hk)
  exact absurd (hle'.trans hle) (Nat.not_le_of_lt hc.2)

theorem resumes_token (k : ℕ) : h.Resumes (h.token k) (k + 1) :=
  ⟨fun _ hj => position_le.mpr (Nat.le_of_lt_succ hj), position_lt.mpr (Nat.lt_succ_self k)⟩

/-- Every cursor has payments after it. -/
theorem exists_resumes (cursor : String) : ∃ first, h.Resumes cursor first := by
  have hex : ∃ k, h.position cursor < h.position (h.token k) :=
    ⟨h.position cursor + 1, h.increasing.id_le _⟩
  exact ⟨Nat.find hex, fun k hk => Nat.le_of_not_lt (Nat.find_min hex hk), Nat.find_spec hex⟩

end Horizon

/-! ## The process -/

/-- The reconciler process. -/
inductive Proc where
  /-- Not running. -/
  | down
  /-- Between two attempts, with the cursor that `main` has read. -/
  | idle (cursor : String)
  /-- The request has arrived; the response starts with the payment `first`. -/
  | waiting (cursor : String) (first : ℕ)
  /-- The response ends before the payment `stop`; the line of the payment `next` is
  the next one, or is being processed. -/
  | consuming (cursor : String) (next stop : ℕ) (call : Option Pc)
  deriving DecidableEq

/-- The cursor that the process holds. -/
def Proc.cursor : Proc → Option String
  | .down => none
  | .idle cursor | .waiting cursor _ | .consuming cursor _ _ _ => some cursor

structure StreamSys where
  world : World
  /-- How many payments Horizon has ingested. -/
  arrived : ℕ := 0
  process : Proc := .down
  /-- How many it had ingested when the first request arrived. -/
  since : Option ℕ := none

inductive StreamLabel where
  /-- Horizon ingests a payment. -/
  | ingest
  /-- `main` reads the cursor. -/
  | start
  | request (first : ℕ)
  | respond (stop : ℕ)
  | exec (now : Timestamp)
  /-- The request, a line or a statement fails: `run_stream` returns its error. -/
  | fail
  /-- `run_stream` returns `Ok`, and `main` with it. -/
  | finish
  | crash
  /-- Others write to the database or to Redis. -/
  | others (db : Db) (redis : Redis)

/-- The process after a statement. -/
def Next.proc (cursor : String) (next stop : ℕ) : Next → Proc
  | .goto pc => .consuming cursor next stop (some pc)
  | .ret true => .consuming cursor (next + 1) stop none
  | .ret false => .idle cursor

/-- Horizon reads `now` as the moment at which the request arrives. -/
def firstIs (h : Horizon) (arrived : ℕ) (cursor : String) (first : ℕ) : Prop :=
  if cursor = "now" then first = arrived else h.Resumes cursor first

instance (h : Horizon) (arrived : ℕ) (cursor : String) (first : ℕ) :
    Decidable (firstIs h arrived cursor first) :=
  if hc : cursor = "now" then decidable_of_iff (first = arrived) (by simp [firstIs, hc])
  else decidable_of_iff (h.Resumes cursor first) (by simp [firstIs, hc])

/-- The runs of one reconciler process, over attempts and restarts. A row lock of
others only delays it. -/
def stream (env : Env) (h : Horizon) : Lts StreamSys StreamLabel where
  step s
    | .ingest => some { s with arrived := s.arrived + 1 }
    | .start =>
      match s.process with
      | .down => some { s with process := .idle s.world.db.cursor }
      | _ => none
    | .request first =>
      match s.process with
      | .idle cursor =>
        if firstIs h s.arrived cursor first then
          some { s with process := .waiting cursor first, since := some (s.since.getD s.arrived) }
        else none
      | _ => none
    | .respond stop =>
      match s.process with
      | .waiting cursor first =>
        if first ≤ stop ∧ stop ≤ s.arrived then
          some { s with process := .consuming cursor first stop none }
        else none
      | _ => none
    | .exec now =>
      match s.process with
      | .consuming cursor next stop none =>
        if next < stop then
          some { s with process := .consuming cursor next stop (some .eventExists) }
        else none
      | .consuming cursor next stop (some pc) =>
        match Reconciler.exec env now (fun _ => false) s.world (h.payments next) pc with
        | some (world, res) => some { s with world, process := res.proc cursor next stop }
        | none => none
      | _ => none
    | .fail => s.process.cursor.map fun cursor => { s with process := .idle cursor }
    | .finish =>
      match s.process with
      | .consuming _ next stop none =>
        if next = stop then some { s with process := .down } else none
      | _ => none
    | .crash => some { s with process := .down }
    | .others db redis =>
      if db.paymentEvents = s.world.db.paymentEvents ∧ db.cursor = s.world.db.cursor then
        some { s with world := { db, redis } }
      else none

/-- What a step of the process does, label by label. -/
inductive StreamSpec (env : Env) (h : Horizon) (s : StreamSys) : StreamLabel → StreamSys → Prop
  | ingest : StreamSpec env h s .ingest { s with arrived := s.arrived + 1 }
  | start (hproc : s.process = .down) :
      StreamSpec env h s .start { s with process := .idle s.world.db.cursor }
  | request {cursor : String} {first : ℕ} (hproc : s.process = .idle cursor)
      (hfirst : firstIs h s.arrived cursor first) :
      StreamSpec env h s (.request first)
        { s with process := .waiting cursor first, since := some (s.since.getD s.arrived) }
  | respond {cursor : String} {first stop : ℕ} (hproc : s.process = .waiting cursor first)
      (hstop : first ≤ stop ∧ stop ≤ s.arrived) :
      StreamSpec env h s (.respond stop) { s with process := .consuming cursor first stop none }
  /-- The call on the next payment begins. -/
  | call {cursor : String} {next stop : ℕ} {now : Timestamp}
      (hproc : s.process = .consuming cursor next stop none) (hnext : next < stop) :
      StreamSpec env h s (.exec now)
        { s with process := .consuming cursor next stop (some .eventExists) }
  | exec {cursor : String} {next stop : ℕ} {pc : Pc} {now : Timestamp} {world : World} {res : Next}
      (hproc : s.process = .consuming cursor next stop (some pc))
      (hexec : Reconciler.exec env now (fun _ => false) s.world (h.payments next) pc
        = some (world, res)) :
      StreamSpec env h s (.exec now) { s with world, process := res.proc cursor next stop }
  | fail {cursor : String} (hcursor : s.process.cursor = some cursor) :
      StreamSpec env h s .fail { s with process := .idle cursor }
  | finish {cursor : String} {stop : ℕ} (hproc : s.process = .consuming cursor stop stop none) :
      StreamSpec env h s .finish { s with process := .down }
  | crash : StreamSpec env h s .crash { s with process := .down }
  | others {db : Db} {redis : Redis} (hevents : db.paymentEvents = s.world.db.paymentEvents)
      (hcursor : db.cursor = s.world.db.cursor) :
      StreamSpec env h s (.others db redis) { s with world := { db, redis } }

/-- Every step is as specified. -/
theorem stream_spec {env : Env} {h : Horizon} {s s' : StreamSys} {a : StreamLabel}
    (hstep : (stream env h).step s a = some s') : StreamSpec env h s a s' := by
  cases a with
  | ingest =>
    cases hstep
    exact .ingest
  | start =>
    simp only [stream] at hstep
    split at hstep
    · next hproc =>
      cases hstep
      exact .start hproc
    · cases hstep
  | request first =>
    simp only [stream] at hstep
    split at hstep
    · next cursor hproc =>
      split at hstep
      · next hfirst =>
        cases hstep
        exact .request hproc hfirst
      · cases hstep
    · cases hstep
  | respond stop =>
    simp only [stream] at hstep
    split at hstep
    · next cursor first hproc =>
      split at hstep
      · next hstop =>
        cases hstep
        exact .respond hproc hstop
      · cases hstep
    · cases hstep
  | exec now =>
    simp only [stream] at hstep
    split at hstep
    · next cursor next stop hproc =>
      split at hstep
      · next hnext =>
        cases hstep
        exact .call hproc hnext
      · cases hstep
    · next cursor next stop pc hproc =>
      split at hstep
      · next world res hexec =>
        cases hstep
        exact .exec hproc hexec
      · cases hstep
    · cases hstep
  | fail =>
    obtain ⟨cursor, hcursor, rfl⟩ := Option.map_eq_some_iff.mp hstep
    exact .fail hcursor
  | finish =>
    simp only [stream] at hstep
    split at hstep
    · next cursor next stop hproc =>
      split at hstep
      · next heq =>
        cases hstep
        exact .finish (heq ▸ hproc)
      · cases hstep
    · cases hstep
  | crash =>
    cases hstep
    exact .crash
  | others db redis =>
    simp only [stream] at hstep
    split at hstep
    · next hsame =>
      cases hstep
      exact .others hsame.1 hsame.2
    · cases hstep

/-! ## What is recorded -/

section Recorded

variable (env : Env) (h : Horizon)

/-- The payment has an event, if its asset is one that the platform takes. -/
def Recorded (db : Db) (k : ℕ) : Prop :=
  isAcceptedAsset (h.payments k) env.config = true → hasEvent db (h.token k) = true

/-- The payments from `f` on and before `n` are recorded. -/
def RecordedTo (f : ℕ) (db : Db) (n : ℕ) : Prop := ∀ k, f ≤ k → k < n → Recorded env h db k

/-- The cursor is `now`, or all payments from `f` up to it are recorded. -/
def CursorOk (f : ℕ) (db : Db) (cursor : String) : Prop :=
  cursor = "now" ∨ ∃ n, h.Resumes cursor n ∧ f ≤ n ∧ RecordedTo env h f db n

/-- The cursor is `now`, or before the payment. -/
def Before (cursor : String) (k : ℕ) : Prop :=
  cursor = "now" ∨ h.position cursor < h.position (h.token k)

/-- Once a call has written its event, the saved cursor is still before it. -/
def Written (db : Db) (k : ℕ) : Phase → Prop
  | .recorded _ _ | .crediting _ _ | .finishing =>
    hasEvent db (h.token k) = true ∧ Before h db.cursor k
  | _ => True

/-- Where a call on the payment `k` stands. -/
structure CallOk (db : Db) (k : ℕ) (pc : Pc) : Prop where
  accepted : pc ≠ .eventExists → isAcceptedAsset (h.payments k) env.config = true
  written : Written h db k pc.phase

/-- Where the process stands: it looks at no payment before all from `f` on that
precede it are recorded. -/
def ProcOk (f : ℕ) (db : Db) : Proc → Prop
  | .down => True
  | .idle cursor => CursorOk env h f db cursor
  | .waiting cursor first =>
    CursorOk env h f db cursor ∧ f ≤ first ∧ RecordedTo env h f db first
  | .consuming cursor next _ call =>
    CursorOk env h f db cursor ∧ f ≤ next ∧ RecordedTo env h f db next ∧
      ∀ pc, call = some pc → CallOk env h db next pc

/-- The invariant of a process that is to record the payments from `f` on. -/
structure StreamInv (f : ℕ) (s : StreamSys) : Prop where
  saved : CursorOk env h f s.world.db s.world.db.cursor
  process : ProcOk env h f s.world.db s.process

end Recorded

section Calls

variable {env : Env} {h : Horizon} {f k : ℕ} {db db' : Db}

theorem RecordedTo.mono {n : ℕ} (hr : RecordedTo env h f db n)
    (hev : ∀ token, hasEvent db token = true → hasEvent db' token = true) :
    RecordedTo env h f db' n := fun k hf hk hacc => hev _ (hr k hf hk hacc)

theorem CursorOk.mono {cursor : String} (hc : CursorOk env h f db cursor)
    (hev : ∀ token, hasEvent db token = true → hasEvent db' token = true) :
    CursorOk env h f db' cursor :=
  hc.imp_right fun ⟨n, hn, hf, hr⟩ => ⟨n, hn, hf, hr.mono hev⟩

/-- **A payment without event is after the saved cursor.** -/
theorem CursorOk.before {cursor : String} (hc : CursorOk env h f db cursor) (hf : f ≤ k)
    (hacc : isAcceptedAsset (h.payments k) env.config = true)
    (hfresh : hasEvent db (h.token k) = false) : Before h cursor k := by
  refine hc.imp_right fun ⟨n, hn, _, hr⟩ => ?_
  by_contra hle
  rw [hr k hf (hn.le_iff.mp (Nat.le_of_not_lt hle)) hacc] at hfresh
  cases hfresh

/-- What a call does to cursor and events. -/
structure CallStep (env : Env) (h : Horizon) (k : ℕ) (db db' : Db) (ph' : Phase) : Prop where
  events : ∀ token, hasEvent db token = true → hasEvent db' token = true
  cursor : db'.cursor = db.cursor ∨
    (db'.cursor = h.token k ∧ Before h db.cursor k ∧ hasEvent db' (h.token k) = true)
  written : Written h db' k ph'
  returned : ph' = .returned true → Recorded env h db' k

theorem CallStep.of_events {db : Db} {ph' : Phase} (hwritten : Written h db k ph')
    (hreturned : ph' = .returned true → Recorded env h db k) : CallStep env h k db db ph' :=
  ⟨fun _ => id, .inl rfl, hwritten, hreturned⟩

/-- The `INSERT` of the event. -/
theorem callStep_insert {ph' : Phase} {now : Timestamp} {invoiceId : Option Uuid}
    {ofacResult : String}
    {eventId : Nat} (hsaved : CursorOk env h f db db.cursor) (hf : f ≤ k)
    (hacc : isAcceptedAsset (h.payments k) env.config = true)
    (hins : insertPaymentEvent env now db (h.payments k) invoiceId ofacResult = some (db', eventId))
    (hph : ph' ≠ .returned true) : CallStep env h k db db' ph' := by
  obtain ⟨hfresh, e, -, htok, -, hmem, hdb⟩ := insertPaymentEvent_some hins
  have hcursor : db'.cursor = db.cursor := by rw [hdb]
  have hexists : hasEvent db' (h.token k) = true :=
    hasEvent_iff.mpr ⟨e, (hmem e).mpr (.inr rfl), htok⟩
  have hbefore : Before h db'.cursor k := hcursor ▸ hsaved.before hf hacc hfresh
  refine ⟨fun token ht => ?_, .inl hcursor, ?_, fun heq => absurd heq hph⟩
  · obtain ⟨x, hx, hxt⟩ := hasEvent_iff.mp ht
    exact hasEvent_iff.mpr ⟨x, (hmem x).mpr (.inl hx), hxt⟩
  · cases ph' <;> first | exact trivial | exact ⟨hexists, hbefore⟩

/-- **What one statement does to cursor and events.** The cursor moves only to a
payment that is recorded and that it was before. -/
theorem PhaseStep.callStep {now : Timestamp} {locked : Uuid → Bool} {w w' : World} {ph ph' : Phase}
    (hstep : PhaseStep env now locked (h.payments k) w ph w' ph')
    (hsaved : CursorOk env h f w.db w.db.cursor) (hf : f ≤ k)
    (hacc : ph ≠ .searching → isAcceptedAsset (h.payments k) env.config = true)
    (hwritten : Written h w.db k ph) : CallStep env h k w.db w'.db ph' := by
  cases hstep with
  | look hdb => exact hdb ▸ .of_events trivial nofun
  | reject hdb => exact hdb ▸ .of_events trivial nofun
  | skip _ hno =>
    refine .of_events trivial fun _ hacc => ?_
    rw [hacc] at hno
    cases hno
  | found => exact .of_events trivial nofun
  | log hins => exact callStep_insert hsaved hf (hacc nofun) hins nofun
  | record hins => exact callStep_insert hsaved hf (hacc nofun) hins nofun
  | begin => exact .of_events hwritten nofun
  | write => exact .of_events hwritten nofun
  | lock => exact .of_events hwritten nofun
  | miss => exact .of_events hwritten nofun
  | commit c updated hooks => exact ⟨fun _ => id, .inl rfl, hwritten, nofun⟩
  | publish => exact .of_events hwritten nofun
  | finish =>
    exact ⟨fun _ => id, .inr ⟨rfl, hwritten.2, hwritten.1⟩, trivial, fun _ _ => hwritten.1⟩
  | fail => exact .of_events trivial nofun

/-- Past its first statement, a call knows that the asset is accepted. -/
theorem accepted_of_exec {now : Timestamp} {locked : Uuid → Bool} {w w' : World} {pc pc' : Pc}
    {payment : HorizonPayment}
    (hacc : pc ≠ .eventExists → isAcceptedAsset payment env.config = true)
    (hexec : exec env now locked w payment pc = some (w', .goto pc')) :
    isAcceptedAsset payment env.config = true := by
  by_cases hpc : pc = .eventExists
  · subst hpc
    rw [exec_eventExists] at hexec
    split at hexec
    · cases hexec
    · split at hexec
      · assumption
      · cases hexec
  · exact hacc hpc

theorem Written.congr {ph : Phase} (hw : Written h db k ph)
    (hev : hasEvent db (h.token k) = true → hasEvent db' (h.token k) = true)
    (hcursor : db'.cursor = db.cursor) : Written h db' k ph := by
  cases ph with
  | recorded | crediting | finishing => exact ⟨hev hw.1, hcursor ▸ hw.2⟩
  | _ => trivial

/-- The process still holds the cursor that it has read. -/
theorem ProcOk.held {p : Proc} {cursor : String} (hp : ProcOk env h f db p)
    (hc : p.cursor = some cursor) : CursorOk env h f db cursor := by
  cases p with
  | down => cases hc
  | idle =>
    cases hc
    exact hp
  | waiting | consuming =>
    cases hc
    exact hp.1

/-- Only events and cursor count. -/
theorem ProcOk.congr {p : Proc} (hp : ProcOk env h f db p)
    (hev : db'.paymentEvents = db.paymentEvents) (hcursor : db'.cursor = db.cursor) :
    ProcOk env h f db' p := by
  have hmono : ∀ token, hasEvent db token = true → hasEvent db' token = true := by
    intro token ht
    rw [hasEvent, hev]
    exact ht
  cases p with
  | down => trivial
  | idle => exact CursorOk.mono hp hmono
  | waiting => exact ⟨hp.1.mono hmono, hp.2.1, hp.2.2.mono hmono⟩
  | consuming cursor next stop call =>
    obtain ⟨hc, hf, hr, hcall⟩ := hp
    exact ⟨hc.mono hmono, hf, hr.mono hmono, fun pc hpc =>
      ⟨(hcall pc hpc).accepted, (hcall pc hpc).written.congr (hmono _) hcursor⟩⟩

/-- A cursor resumes at one payment only. -/
theorem Horizon.Resumes.unique {cursor : String} {m n : ℕ} (hm : h.Resumes cursor m)
    (hn : h.Resumes cursor n) : m = n := by
  rcases Nat.lt_trichotomy m n with hlt | heq | hlt
  · exact absurd (hm.le_iff.mp (hn.1 m hlt)) (Nat.lt_irrefl m)
  · exact heq
  · exact absurd (hn.le_iff.mp (hm.1 n hlt)) (Nat.lt_irrefl n)

/-- The payment after the last recorded one is recorded too. -/
theorem RecordedTo.succ {n : ℕ} (hr : RecordedTo env h f db n) (hn : Recorded env h db n) :
    RecordedTo env h f db (n + 1) := by
  intro k hf hk
  rcases Nat.lt_or_eq_of_le (Nat.le_of_lt_succ hk) with hlt | rfl
  · exact hr k hf hlt
  · exact hn

/-- The cursor may be moved to a recorded payment all before which are recorded. -/
theorem CursorOk.token (hf : f ≤ k) (hr : RecordedTo env h f db k) (hk : Recorded env h db k) :
    CursorOk env h f db (h.token k) :=
  .inr ⟨k + 1, h.resumes_token k, Nat.le_succ_of_le hf, hr.succ hk⟩

end Calls

/-! ## Steps -/

section Steps

variable {env : Env} {h : Horizon} {f : ℕ} {s s' : StreamSys}

/-- What a step does to the saved cursor: it moves forward to a payment. -/
def Advances (h : Horizon) (cursor cursor' : String) : Prop :=
  cursor' = cursor ∨ ∃ k, cursor' = h.token k ∧ Before h cursor k

/-- One statement of a call. -/
theorem streamInv_exec {now : Timestamp} {cursor : String} {next stop : ℕ} {pc : Pc} {world : World}
    {res : Next} (hinv : StreamInv env h f s)
    (hproc : s.process = .consuming cursor next stop (some pc))
    (hexec : exec env now (fun _ => false) s.world (h.payments next) pc = some (world, res)) :
    StreamInv env h f { s with world, process := res.proc cursor next stop } ∧
      Advances h s.world.db.cursor world.db.cursor := by
  obtain ⟨hsaved, hp⟩ := hinv
  rw [hproc] at hp
  obtain ⟨hheld, hf, hr, hcall⟩ := hp
  obtain ⟨hacc, hwritten⟩ := hcall pc rfl
  have hphase : pc.phase ≠ .searching → pc ≠ .eventExists := by
    rintro hne rfl
    exact hne rfl
  have hstep := (exec_phaseStep hexec).callStep hsaved hf (fun hne => hacc (hphase hne)) hwritten
  have hr' := hr.mono hstep.events
  have hheld' := hheld.mono hstep.events
  refine ⟨⟨?_, ?_⟩, hstep.cursor.imp id fun hc => ⟨next, hc.1, hc.2.1⟩⟩
  · rcases hstep.cursor with hc | ⟨hc, -, hex⟩
    · rw [hc]
      exact hsaved.mono hstep.events
    · rw [hc]
      exact .token hf hr' fun _ => hex
  · cases res with
    | goto pc' =>
      refine ⟨hheld', hf, hr', fun pc'' hpc => ?_⟩
      cases hpc
      exact ⟨fun _ => accepted_of_exec hacc hexec, hstep.written⟩
    | ret ok =>
      cases ok with
      | true =>
        exact ⟨hheld', Nat.le_succ_of_le hf, hr'.succ (hstep.returned rfl),
          fun _ hpc => nomatch hpc⟩
      | false => exact hheld'

/-- **One step keeps the invariant** and moves the saved cursor forward. A request
with the cursor `now` must come when nothing is missing. -/
theorem streamInv_step {a : StreamLabel} (hinv : StreamInv env h f s)
    (hnow : ∀ first, a = .request first → s.process = .idle "now" →
      f ≤ s.arrived ∧ RecordedTo env h f s.world.db s.arrived)
    (hstep : (stream env h).step s a = some s') :
    StreamInv env h f s' ∧ Advances h s.world.db.cursor s'.world.db.cursor := by
  have hsaved := hinv.saved
  have hp := hinv.process
  cases stream_spec hstep with
  | ingest => exact ⟨⟨hsaved, hp⟩, .inl rfl⟩
  | start => exact ⟨⟨hsaved, hsaved⟩, .inl rfl⟩
  | @request cursor first hproc hfirst =>
    rw [hproc] at hp
    refine ⟨⟨hsaved, hp, ?_⟩, .inl rfl⟩
    unfold firstIs at hfirst
    split at hfirst
    · next hc =>
      rw [hfirst]
      exact hnow first rfl (hc ▸ hproc)
    · next hc =>
      obtain ⟨n, hn, hf, hr⟩ := hp.resolve_left hc
      rw [hfirst.unique hn]
      exact ⟨hf, hr⟩
  | respond hproc =>
    rw [hproc] at hp
    exact ⟨⟨hsaved, hp.1, hp.2.1, hp.2.2, fun _ hpc => nomatch hpc⟩, .inl rfl⟩
  | call hproc =>
    rw [hproc] at hp
    refine ⟨⟨hsaved, hp.1, hp.2.1, hp.2.2.1, fun pc hpc => ?_⟩, .inl rfl⟩
    cases hpc
    exact ⟨fun hne => absurd rfl hne, trivial⟩
  | exec hproc hexec => exact streamInv_exec hinv hproc hexec
  | fail hcursor => exact ⟨⟨hsaved, hp.held hcursor⟩, .inl rfl⟩
  | finish => exact ⟨⟨hsaved, trivial⟩, .inl rfl⟩
  | crash => exact ⟨⟨hsaved, trivial⟩, .inl rfl⟩
  | others hevents hcursor =>
    refine ⟨⟨?_, hp.congr hevents hcursor⟩, .inl hcursor⟩
    exact hcursor ▸ ProcOk.congr (p := .idle s.world.db.cursor) hsaved hevents hcursor

end Steps

end Stargate.Reconciler
