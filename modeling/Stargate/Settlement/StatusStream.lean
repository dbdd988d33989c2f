import Stargate.Base.Transition
import Stargate.Schema

/-!
# Settlement streams (`streamSettlement`, `publishStatusChange`)

A stream reads the row, emits its status and only then subscribes to the channel on which
changes are published. A message that is published in between reaches nobody.

- `streaming`: one settlement, its channel and one stream, step by step;
- `outsideGap`: no change that the read has missed is published before the subscription;
- `UpToDate`: what a live stream has emitted last, when nothing is under way;
- `keeps_up`: outside the gap it holds in every state;
- `gap_loses_status`: inside it a final status is lost, and the stream stays open.
-/

namespace Stargate.SettlementStream

open Base

/-- `status === 'confirmed' || status === 'failed'`. -/
def isFinal (status : SettlementStatus) : Bool := status == .confirmed || status == .failed

/-- Where `streamSettlement` stands. -/
inductive Pc where
  /-- The query is under way. -/
  | reading
  /-- The row has been read, and the callback has not run yet. -/
  | emitting (status : SettlementStatus)
  /-- `SUBSCRIBE` has been sent. -/
  | subscribing
  | listening
  | completed
  deriving DecidableEq

/-- The row, its channel and a stream. -/
structure World where
  /-- `settlements.status`. -/
  status : SettlementStatus
  /-- Changes whose message is not published yet, oldest first. -/
  unpublished : List SettlementStatus
  /-- How many of these the stream's read has seen. -/
  seen : Nat
  /-- Messages on their way to the stream's client. -/
  inFlight : List SettlementStatus
  /-- The statuses that the stream has emitted. -/
  emitted : List SettlementStatus
  pc : Pc
  deriving DecidableEq

inductive Step where
  /-- The status is changed in the database. -/
  | change (status : SettlementStatus)
  /-- `publishStatusChange` for the oldest change that is not published. -/
  | publish
  | read
  | callback
  /-- Redis handles the `SUBSCRIBE`. -/
  | subscribe
  | deliver
  deriving DecidableEq

/-- The stream emits a status, and completes if it is final. -/
def World.emit (w : World) (status : SettlementStatus) (next : Pc) : World :=
  { w with
    emitted := w.emitted ++ [status]
    pc := if isFinal status then .completed else next }

/-- Changes and their messages, and a stream. -/
def streaming : Lts World Step where
  step w
    | .change status => some { w with status, unpublished := w.unpublished ++ [status] }
    | .publish =>
      match w.unpublished with
      | [] => none
      | status :: unpublished =>
        -- only a client that is subscribed gets the message
        let inFlight := if w.pc = .listening then w.inFlight ++ [status] else w.inFlight
        some { w with unpublished, seen := w.seen - 1, inFlight }
    | .read =>
      match w.pc with
      | .reading => some { w with pc := .emitting w.status, seen := w.unpublished.length }
      | _ => none
    | .callback =>
      match w.pc with
      | .emitting status => some (w.emit status .subscribing)
      | _ => none
    | .subscribe =>
      match w.pc with
      | .subscribing => some { w with pc := .listening }
      | _ => none
    | .deliver =>
      match w.pc, w.inFlight with
      | .listening, status :: inFlight =>
        some (({ w with inFlight } : World).emit status .listening)
      | _, _ => none

/-- The read is over, and the subscription is not established. -/
def Pc.inGap : Pc → Bool
  | .emitting _ | .subscribing => true
  | _ => false

/-- A message that is published in the gap is one that the read has seen. -/
def outsideGap (w : World) : Step → Prop
  | .publish => w.pc.inGap = true → 0 < w.seen
  | _ => True

instance decidableOutsideGap (w : World) : ∀ a, Decidable (outsideGap w a)
  | .publish => inferInstanceAs (Decidable (_ → _))
  | .change _ | .read | .callback | .subscribe | .deliver => .isTrue trivial

/-- All changes are published, and all messages delivered. -/
def World.Quiet (w : World) : Prop := w.unpublished = [] ∧ w.inFlight = []

/-- With the subscription established and nothing under way, the stream's last status is the
current one, and the stream has completed if that is final. -/
def UpToDate (w : World) : Prop :=
  w.pc = .listening → w.Quiet →
    w.emitted.getLast? = some w.status ∧ (isFinal w.status = true → w.pc = .completed)

/-! ## What holds outside the gap -/

/-- The status that changes leave behind, from `before` on. -/
def latest (before : SettlementStatus) (changes : List SettlementStatus) : SettlementStatus :=
  changes.getLast?.getD before

theorem latest_concat (before status : SettlementStatus) (changes : List SettlementStatus) :
    latest before (changes ++ [status]) = status := by
  rw [latest, List.getLast?_concat, Option.getD_some]

theorem latest_cons (before status : SettlementStatus) (changes : List SettlementStatus) :
    latest before (status :: changes) = latest status changes := by
  rw [latest, latest, List.getLast?_cons, Option.getD_some]

/-- Where the changes end does not depend on where they begin. -/
theorem latest_of_ne_nil {changes : List SettlementStatus} (h : changes ≠ [])
    (before before' : SettlementStatus) : latest before changes = latest before' changes := by
  obtain ⟨status, rest, rfl⟩ := List.exists_cons_of_ne_nil h
  rw [latest_cons, latest_cons]

/-- What the stream knows and what is still to come make up the current status. -/
def Pc.Consistent (w : World) : Pc → Prop
  | .reading => w.emitted = [] ∧ w.inFlight = []
  | .emitting status =>
    w.emitted = [] ∧ w.inFlight = [] ∧ w.status = latest status (w.unpublished.drop w.seen)
  | .subscribing => ∃ status, w.emitted.getLast? = some status ∧ isFinal status = false ∧
      w.inFlight = [] ∧ w.status = latest status (w.unpublished.drop w.seen)
  | .listening => ∃ status, w.emitted.getLast? = some status ∧ isFinal status = false ∧
      w.status = latest status (w.inFlight ++ w.unpublished)
  | .completed => True

structure Inv (w : World) : Prop where
  /-- The last change is the current status. -/
  last : latest w.status w.unpublished = w.status
  seen : w.seen ≤ w.unpublished.length
  pc : w.pc.Consistent w

/-- Of a status that is emitted, only one that is not final is of any further account. -/
theorem Inv.emit {w : World} {status : SettlementStatus} {next : Pc}
    (hlast : latest w.status w.unpublished = w.status) (hseen : w.seen ≤ w.unpublished.length)
    (hnext : isFinal status = false → next.Consistent (w.emit status next)) :
    Inv (w.emit status next) := by
  refine ⟨hlast, hseen, ?_⟩
  cases hfinal : isFinal status with
  | true => simp only [World.emit, hfinal, if_true, Pc.Consistent]
  | false => simpa [World.emit, hfinal] using hnext hfinal

/-- A change is the last of those that are not published. -/
theorem Inv.change {w : World} (h : Inv w) (status : SettlementStatus) :
    Inv { w with status, unpublished := w.unpublished ++ [status] } := by
  obtain ⟨hlast, hseen, hpc⟩ := h
  have hlength : w.seen ≤ (w.unpublished ++ [status]).length := by
    rw [List.length_append]
    omega
  refine ⟨latest_concat _ _ _, hlength, ?_⟩
  have hdrop : (w.unpublished ++ [status]).drop w.seen = w.unpublished.drop w.seen ++ [status] :=
    List.drop_append_of_le_length hseen
  cases hw : w.pc with
  | reading =>
    rw [hw] at hpc
    exact hpc
  | emitting read =>
    rw [hw] at hpc
    obtain ⟨hemitted, hinFlight, -⟩ := hpc
    refine ⟨hemitted, hinFlight, ?_⟩
    change status = latest read ((w.unpublished ++ [status]).drop w.seen)
    rw [hdrop, latest_concat]
  | subscribing =>
    rw [hw] at hpc
    obtain ⟨read, hemitted, hopen, hinFlight, -⟩ := hpc
    refine ⟨read, hemitted, hopen, hinFlight, ?_⟩
    change status = latest read ((w.unpublished ++ [status]).drop w.seen)
    rw [hdrop, latest_concat]
  | listening =>
    rw [hw] at hpc
    obtain ⟨known, hemitted, hopen, -⟩ := hpc
    refine ⟨known, hemitted, hopen, ?_⟩
    change status = latest known (w.inFlight ++ (w.unpublished ++ [status]))
    rw [← List.append_assoc, latest_concat]
  | completed => trivial

/-- A change that is published has been seen by the read or goes to the stream. -/
theorem Inv.publish {w : World} (h : Inv w) {status : SettlementStatus}
    {unpublished : List SettlementStatus} (hw : w.unpublished = status :: unpublished)
    (hgap : w.pc.inGap = true → 0 < w.seen) :
    Inv { w with
      unpublished
      seen := w.seen - 1
      inFlight := if w.pc = .listening then w.inFlight ++ [status] else w.inFlight } := by
  obtain ⟨hlast, hseen, hpc⟩ := h
  rw [hw, latest_cons] at hlast
  rw [hw, List.length_cons] at hseen
  have hrest : latest w.status unpublished = w.status := by
    by_cases hnil : unpublished = []
    · rw [hnil]
      rfl
    · rw [latest_of_ne_nil hnil w.status status, hlast]
  have hdrop : 0 < w.seen → w.unpublished.drop w.seen = unpublished.drop (w.seen - 1) := by
    intro hpos
    obtain ⟨n, hn⟩ : ∃ n, w.seen = n + 1 := ⟨w.seen - 1, by omega⟩
    rw [hn, hw, List.drop_succ_cons, Nat.add_sub_cancel]
  refine ⟨hrest, by simp only; omega, ?_⟩
  cases hpcw : w.pc with
  | reading =>
    rw [hpcw] at hpc
    exact hpc
  | emitting read =>
    rw [hpcw] at hpc hgap
    obtain ⟨hemitted, hinFlight, hstatus⟩ := hpc
    exact ⟨hemitted, hinFlight, by rw [hstatus, hdrop (hgap rfl)]⟩
  | subscribing =>
    rw [hpcw] at hpc hgap
    obtain ⟨read, hemitted, hopen, hinFlight, hstatus⟩ := hpc
    exact ⟨read, hemitted, hopen, hinFlight, by rw [hstatus, hdrop (hgap rfl)]⟩
  | listening =>
    rw [hpcw] at hpc
    obtain ⟨known, hemitted, hopen, hstatus⟩ := hpc
    refine ⟨known, hemitted, hopen, ?_⟩
    change w.status = latest known (w.inFlight ++ [status] ++ unpublished)
    rw [hstatus, hw, List.append_assoc, List.singleton_append]
  | completed => trivial

/-- What the read has seen need not come as a message, and no harm is done if it does. -/
theorem Inv.subscribe {w : World} (h : Inv w) (hw : w.pc = .subscribing) :
    Inv { w with pc := .listening } := by
  obtain ⟨hlast, hseen, hpc⟩ := h
  rw [hw] at hpc
  obtain ⟨read, hemitted, hopen, hinFlight, hstatus⟩ := hpc
  refine ⟨hlast, hseen, read, hemitted, hopen, ?_⟩
  change w.status = latest read (w.inFlight ++ w.unpublished)
  rw [hinFlight, List.nil_append]
  by_cases hnil : w.unpublished = []
  · rw [hnil, List.drop_nil] at hstatus
    rw [hnil, hstatus]
  · rw [latest_of_ne_nil hnil read w.status, hlast]

theorem inv_step {w w' : World} {a : Step} (h : Inv w) (hgap : outsideGap w a)
    (hstep : streaming.step w a = some w') : Inv w' := by
  cases a with
  | change status =>
    cases hstep
    exact h.change status
  | publish =>
    simp only [streaming] at hstep
    split at hstep
    · cases hstep
    · next status unpublished hw =>
      cases hstep
      exact h.publish hw hgap
  | read =>
    simp only [streaming] at hstep
    split at hstep
    · next hpc =>
      cases hstep
      have hreading := h.pc
      rw [hpc] at hreading
      refine ⟨h.last, le_refl _, hreading.1, hreading.2, ?_⟩
      change w.status = latest w.status (w.unpublished.drop w.unpublished.length)
      rw [List.drop_length]
      rfl
    · cases hstep
  | callback =>
    simp only [streaming] at hstep
    split at hstep
    · next status hpc =>
      cases hstep
      have hemitting := h.pc
      rw [hpc] at hemitting
      obtain ⟨hemitted, hinFlight, hstatus⟩ := hemitting
      refine Inv.emit h.last h.seen fun hopen => ⟨status, ?_, hopen, hinFlight, hstatus⟩
      exact List.getLast?_concat ..
    · cases hstep
  | subscribe =>
    simp only [streaming] at hstep
    split at hstep
    · next hpc =>
      cases hstep
      exact h.subscribe hpc
    · cases hstep
  | deliver =>
    simp only [streaming] at hstep
    split at hstep
    · next status inFlight hpc hw =>
      cases hstep
      have hlistening := h.pc
      rw [hpc] at hlistening
      obtain ⟨known, -, -, hstatus⟩ := hlistening
      refine Inv.emit h.last h.seen fun hopen => ⟨status, List.getLast?_concat .., hopen, ?_⟩
      rw [hw, List.cons_append, latest_cons] at hstatus
      exact hstatus
    · cases hstep

/-- A stream that listens knows the current status once nothing is under way. -/
theorem Inv.upToDate {w : World} (h : Inv w) : UpToDate w := by
  intro hpc hquiet
  have hlistening := h.pc
  rw [hpc] at hlistening
  obtain ⟨known, hemitted, hopen, hstatus⟩ := hlistening
  rw [hquiet.1, hquiet.2] at hstatus
  have hknown : w.status = known := hstatus
  refine ⟨by rw [hemitted, hknown], fun hfinal => ?_⟩
  rw [hknown, hopen] at hfinal
  cases hfinal

/-! ## Streams inside and outside the gap -/

/-- A client opens a stream on a settlement. -/
def opened (status : SettlementStatus) : World where
  status
  unpublished := []
  seen := 0
  inFlight := []
  emitted := []
  pc := .reading

/-- **A stream keeps up with its settlement**, in every run in which no change that its read
has missed is published before it is subscribed. -/
theorem keeps_up (status : SettlementStatus) (run : List Step) (w : World)
    (hgap : streaming.Guarded outsideGap (opened status) run)
    (hrun : streaming.run (opened status) run = some w) : UpToDate w := by
  have hopened : Inv (opened status) := ⟨rfl, le_refl _, rfl, rfl⟩
  exact (streaming.inv_of_guarded_run (fun _ _ _ h hok hs => inv_step h hok hs)
    hopened hgap hrun).upToDate

/-- The status changes while the stream waits for its subscription, but the message comes
later. -/
theorem keeps_up_submitted :
    ∃ w, streaming.run (opened .pending)
        [.read, .callback, .change .submitted, .subscribe, .publish, .deliver] = some w ∧
      w.pc = .listening ∧ w.Quiet ∧ w.emitted = [.pending, .submitted] ∧ UpToDate w := by
  refine ⟨_, rfl, rfl, ⟨rfl, rfl⟩, rfl, ?_⟩
  exact keeps_up .pending [.read, .callback, .change .submitted, .subscribe, .publish, .deliver] _
    (by decide) rfl

/-- **A final status is lost** when it is published between the read and the subscription. The
stream stays open, and nothing more will come. -/
theorem gap_loses_status :
    ∃ w, streaming.run (opened .pending)
        [.read, .callback, .change .confirmed, .publish, .subscribe] = some w ∧
      w.pc = .listening ∧ w.Quiet ∧ w.status = .confirmed ∧ w.emitted = [.pending] ∧
      ¬ UpToDate w := by
  refine ⟨_, rfl, rfl, ⟨rfl, rfl⟩, rfl, rfl, fun h => ?_⟩
  have hlast := (h rfl ⟨rfl, rfl⟩).1
  revert hlast
  decide

end Stargate.SettlementStream
