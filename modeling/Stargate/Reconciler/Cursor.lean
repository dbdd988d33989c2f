import Stargate.Reconciler.Stream

/-!
# What the saved cursor says

A process that starts on a paging token saves later and later tokens, and has
recorded every payment in between: `cursor_of_run`. The cursor `now` of a fresh
database has no such fixed meaning: a retry that sends it again asks for the payments
from that moment on, and what came since the first request is passed over
(`late_retry_skips_payment`). Without such retries nothing is lost:
`recorded_of_guarded_run`.
-/

namespace Stargate.Reconciler

open Base

section Tokens

variable {env : Env} {h : Horizon} {f : ℕ} {s s' : StreamSys}

/-- The invariant of a process that was started on a paging token. -/
structure TokenInv (env : Env) (h : Horizon) (f : ℕ) (s : StreamSys) : Prop where
  stream : StreamInv env h f s
  saved : s.world.db.cursor ≠ "now"
  held : s.process.cursor ≠ some "now"

/-- A saved cursor never moves back. -/
theorem Advances.position_le {cursor cursor' : String} (hm : Advances h cursor cursor')
    (hnow : cursor ≠ "now") : h.position cursor ≤ h.position cursor' := by
  rcases hm with rfl | ⟨k, rfl, hb⟩
  · exact Nat.le_refl _
  · exact (hb.resolve_left hnow).le

theorem Advances.ne_now {cursor cursor' : String} (hm : Advances h cursor cursor')
    (hnow : cursor ≠ "now") : cursor' ≠ "now" := by
  rcases hm with rfl | ⟨k, rfl, -⟩
  · exact hnow
  · exact h.not_now k

/-- The process reads its cursor from the database, and keeps it. -/
theorem cursor_of_step {a : StreamLabel} (hstep : (stream env h).step s a = some s') :
    s'.process.cursor = none ∨ s'.process.cursor = s.process.cursor ∨
      s'.process.cursor = some s.world.db.cursor := by
  cases stream_spec hstep with
  | ingest | others => exact .inr (.inl rfl)
  | fail hcursor => exact .inr (.inl hcursor.symm)
  | crash | finish => exact .inl rfl
  | start => exact .inr (.inr rfl)
  | request hproc | respond hproc | call hproc => exact .inr (.inl (by rw [hproc]; rfl))
  | @exec _ _ _ _ _ _ res hproc =>
    refine .inr (.inl ?_)
    rw [hproc]
    cases res with
    | goto pc' => rfl
    | ret ok => cases ok <;> rfl

theorem tokenInv_step {a : StreamLabel} (hinv : TokenInv env h f s)
    (hstep : (stream env h).step s a = some s') :
    TokenInv env h f s' ∧ h.position s.world.db.cursor ≤ h.position s'.world.db.cursor := by
  have hnow : ∀ first, a = .request first → s.process = .idle "now" →
      f ≤ s.arrived ∧ RecordedTo env h f s.world.db s.arrived := fun _ _ hproc =>
    absurd (by rw [hproc]; rfl) hinv.held
  obtain ⟨hstream, hadv⟩ := streamInv_step hinv.stream hnow hstep
  refine ⟨⟨hstream, hadv.ne_now hinv.saved, ?_⟩, hadv.position_le hinv.saved⟩
  rcases cursor_of_step hstep with hc | hc | hc
  · rw [hc]
    exact nofun
  · rw [hc]
    exact hinv.held
  · rw [hc]
    exact fun heq => hinv.saved (Option.some.inj heq)

/-- **The cursor never skips a payment and never moves back.** Of a process that is
first started on a paging token, at any two states of a run the later saved cursor is
not before the earlier one, and every payment after the first cursor and up to the
saved one is recorded, if its asset is accepted. -/
theorem cursor_of_run {u t : StreamSys} {before after : List StreamLabel}
    (hdown : s.process = .down) (hcursor : s.world.db.cursor ≠ "now")
    (hbefore : (stream env h).run s before = some u) (hafter : (stream env h).run u after = some t) :
    h.position u.world.db.cursor ≤ h.position t.world.db.cursor ∧
      ∀ k, h.position s.world.db.cursor < h.position (h.payments k).pagingToken →
        h.position (h.payments k).pagingToken ≤ h.position t.world.db.cursor →
        isAcceptedAsset (h.payments k) env.config = true →
        hasEvent t.world.db (h.payments k).pagingToken = true := by
  obtain ⟨f, hf⟩ := h.exists_resumes s.world.db.cursor
  have hstart : TokenInv env h f s := by
    refine ⟨⟨.inr ⟨f, hf, Nat.le_refl f, fun k hk hlt => absurd hk (Nat.not_le_of_lt hlt)⟩, ?_⟩,
      hcursor, by simp [hdown, Proc.cursor]⟩
    rw [hdown]
    trivial
  have hu : TokenInv env h f u := (stream env h).inv_of_run
    (fun _ _ _ hinv hstep => (tokenInv_step hinv hstep).1) hstart hbefore
  obtain ⟨ht, hle⟩ := (stream env h).inv_of_run
    (I := fun t => TokenInv env h f t ∧ h.position u.world.db.cursor ≤ h.position t.world.db.cursor)
    (fun _ _ _ hinv hstep =>
      have hnext := tokenInv_step hinv.1 hstep
      ⟨hnext.1, hinv.2.trans hnext.2⟩)
    ⟨hu, Nat.le_refl _⟩ hafter
  refine ⟨hle, fun k hk hkt hacc => ?_⟩
  obtain ⟨n, hn, -, hr⟩ := ht.stream.saved.resolve_left ht.saved
  -- in the order of the stream: `f ≤ k < n`
  refine hr k ?_ (hn.le_iff.mp hkt) hacc
  by_contra hlt
  exact absurd hk (Nat.not_lt_of_le (hf.1 k (Nat.lt_of_not_le hlt)))

end Tokens

/-! ## The first start of a fresh database -/

section Now

variable {env : Env} {h : Horizon} {s s' : StreamSys}

/-- A request with the cursor `now`, but for the first one, comes when all payments
that were ingested since the first one are recorded. -/
def Caught (env : Env) (h : Horizon) (s : StreamSys) : StreamLabel → Prop
  | .request _ => s.process = .idle "now" →
      ∀ f, s.since = some f → RecordedTo env h f s.world.db s.arrived
  | _ => True

instance (f : ℕ) (db : Db) (n : ℕ) : Decidable (RecordedTo env h f db n) :=
  decidable_of_iff (∀ k < n, f ≤ k → isAcceptedAsset (h.payments k) env.config = true →
    hasEvent db (h.token k) = true) ⟨fun hr k hf hk => hr k hk hf, fun hr k hk hf => hr k hf hk⟩

instance (s : StreamSys) : ∀ a, Decidable (Caught env h s a)
  | .request _ =>
    match hs : s.since with
    | none => isTrue fun _ _ hf => nomatch hs.symm.trans hf
    | some f =>
      decidable_of_iff (s.process = .idle "now" → RecordedTo env h f s.world.db s.arrived)
        ⟨fun hr hp _ hf => Option.some.inj (hs.symm.trans hf) ▸ hr hp, fun hr hp => hr hp f hs⟩
  | .ingest | .start | .respond _ | .exec _ | .fail | .finish | .crash | .others _ _ =>
    isTrue trivial

/-- The invariant of a process that was started on `now`: before its first request
there is nothing to record, after it the payments ingested since. -/
def NowInv (env : Env) (h : Horizon) (s : StreamSys) : Prop :=
  match s.since with
  | none => s.world.db.cursor = "now" ∧ (s.process = .down ∨ s.process = .idle "now")
  | some f => f ≤ s.arrived ∧ StreamInv env h f s

theorem NowInv.fresh (hsince : s.since = none) (hcursor : s.world.db.cursor = "now")
    (hproc : s.process = .down ∨ s.process = .idle "now") : NowInv env h s := by
  rw [NowInv, hsince]
  exact ⟨hcursor, hproc⟩

theorem NowInv.begun {f : ℕ} (hsince : s.since = some f) (hf : f ≤ s.arrived)
    (hstream : StreamInv env h f s) : NowInv env h s := by
  rw [NowInv, hsince]
  exact ⟨hf, hstream⟩

theorem NowInv.of_none (hinv : NowInv env h s) (hsince : s.since = none) :
    s.world.db.cursor = "now" ∧ (s.process = .down ∨ s.process = .idle "now") := by
  rwa [NowInv, hsince] at hinv

theorem NowInv.of_some {f : ℕ} (hinv : NowInv env h s) (hsince : s.since = some f) :
    f ≤ s.arrived ∧ StreamInv env h f s := by
  rwa [NowInv, hsince] at hinv

/-- Only the first request fixes where the payments to record begin; Horizon forgets
none. -/
theorem since_of_step {a : StreamLabel} {f : ℕ} (hsince : s.since = some f)
    (hstep : (stream env h).step s a = some s') : s'.since = some f ∧ s.arrived ≤ s'.arrived := by
  cases stream_spec hstep with
  | ingest => exact ⟨hsince, Nat.le_succ _⟩
  | request => exact ⟨by simp [hsince], Nat.le_refl _⟩
  | start | respond | call | exec | fail | finish | crash | others =>
    exact ⟨hsince, Nat.le_refl _⟩

/-- Until the first request the process has nothing but the cursor `now`. -/
theorem nowInv_start {a : StreamLabel} (hsince : s.since = none) (hinv : NowInv env h s)
    (hstep : (stream env h).step s a = some s') : NowInv env h s' := by
  obtain ⟨hcursor, hproc⟩ := hinv.of_none hsince
  have hidle : ∀ cursor, s.process.cursor = some cursor → cursor = "now" := by
    intro cursor hc
    rcases hproc with hproc | hproc <;> rw [hproc] at hc <;> cases hc
    rfl
  cases stream_spec hstep with
  | ingest => exact .fresh hsince hcursor hproc
  | start => exact .fresh hsince hcursor (.inr (congrArg Proc.idle hcursor))
  | request hreq hfirst =>
    obtain rfl := hidle _ (by rw [hreq]; rfl)
    rw [firstIs, if_pos rfl] at hfirst
    refine .begun (f := s.arrived) (by simp [hsince]) (Nat.le_refl _)
      ⟨.inl hcursor, .inl rfl, hfirst.ge, fun k hk hlt => ?_⟩
    omega
  | respond hbusy | call hbusy | exec hbusy | finish hbusy =>
    rw [hbusy] at hproc
    rcases hproc with hproc | hproc <;> cases hproc
  | fail hc => exact .fresh hsince hcursor (.inr (congrArg Proc.idle (hidle _ hc)))
  | crash => exact .fresh hsince hcursor (.inl rfl)
  | others _ hsame => exact .fresh hsince (hsame.trans hcursor) hproc

theorem nowInv_step {a : StreamLabel} (hinv : NowInv env h s) (hok : Caught env h s a)
    (hstep : (stream env h).step s a = some s') : NowInv env h s' := by
  cases hsince : s.since with
  | none => exact nowInv_start hsince hinv hstep
  | some f =>
    obtain ⟨hf, hstream⟩ := hinv.of_some hsince
    obtain ⟨hsince', harrived⟩ := since_of_step hsince hstep
    refine .begun hsince' (hf.trans harrived) (streamInv_step hstream ?_ hstep).1
    rintro first rfl hproc
    exact ⟨hf, hok hproc f hsince⟩

/-- **No payment is lost on a first start**, if no request after the first is sent
with the cursor `now` while a payment ingested since is not recorded: every payment
ingested after the first request and up to the saved token is recorded, if its asset
is accepted. -/
theorem recorded_of_guarded_run {t : StreamSys} {run : List StreamLabel}
    (hdown : s.process = .down) (hcursor : s.world.db.cursor = "now") (hsince : s.since = none)
    (hguard : (stream env h).Guarded (Caught env h) s run)
    (hrun : (stream env h).run s run = some t) :
    ∀ f j k, t.since = some f → t.world.db.cursor = (h.payments j).pagingToken → f ≤ k → k ≤ j →
      isAcceptedAsset (h.payments k) env.config = true →
      hasEvent t.world.db (h.payments k).pagingToken = true := by
  have ht : NowInv env h t := (stream env h).inv_of_guarded_run
    (fun _ _ _ hinv hok hstep => nowInv_step hinv hok hstep)
    (.fresh hsince hcursor (.inl hdown)) hguard hrun
  intro f j k hf hj hk hkj hacc
  obtain ⟨-, hstream⟩ := ht.of_some hf
  obtain ⟨n, hn, -, hr⟩ := hstream.saved.resolve_left (by rw [hj]; exact h.not_now j)
  refine hr k hk (hn.le_iff.mp ?_) hacc
  rw [hj]
  exact Horizon.position_le.mpr hkj

end Now

/-! ## Runs on fixed payments -/

/-- The `k`-th payment has the token `k + 1`, and pays no invoice. -/
def testHorizon : Horizon where
  payments k := makePayment (String.ofList (Nat.toDigits 10 (k + 1))) "M99099" "10.5000000"
  position token := Nat.ofDigitChars 10 token.toList 0
  increasing := by
    intro j k hjk
    simpa [makePayment, Nat.ofDigitChars_ten_toDigits] using hjk
  not_now k heq := by
    have hn : 'n' ∈ Nat.toDigits 10 (k + 1) := by
      have hlist := congrArg String.toList heq
      simp only [makePayment, String.toList_ofList] at hlist
      rw [hlist]
      decide
    exact absurd (isDigit_toDigits 'n' hn) (by decide)

/-- `k` statements. -/
def statements (k : ℕ) : List StreamLabel := List.replicate k (.exec 0)

/-- A process on a database whose saved cursor is the first token. -/
def resumed : StreamSys where
  world := { db := { cursor := "1" } }
  arrived := 3

/-- The first call of an attempt fails before its event; the next attempt begins at
the same payment again. -/
theorem cursor_of_run_retried : ∃ u t,
    (stream testEnv testHorizon).run resumed
        ([.start, .request 1, .respond 3] ++ statements 4 ++ [.fail]) = some u ∧
      (stream testEnv testHorizon).run u ([.request 1, .respond 3] ++ statements 12 ++ [.finish]) =
        some t ∧
      (testHorizon.position u.world.db.cursor ≤ testHorizon.position t.world.db.cursor ∧
        ∀ k, testHorizon.position resumed.world.db.cursor
            < testHorizon.position (testHorizon.payments k).pagingToken →
          testHorizon.position (testHorizon.payments k).pagingToken
            ≤ testHorizon.position t.world.db.cursor →
          isAcceptedAsset (testHorizon.payments k) testEnv.config = true →
          hasEvent t.world.db (testHorizon.payments k).pagingToken = true) := by
  obtain ⟨t, ht, -⟩ := (stream testEnv testHorizon).exists_of_leadsTo
    (fun t => t.world.db.cursor = "3") resumed
    (([.start, .request 1, .respond 3] ++ statements 4 ++ [.fail]) ++
      ([.request 1, .respond 3] ++ statements 12 ++ [.finish])) (by decide +kernel)
  obtain ⟨u, hu, hut⟩ := (stream testEnv testHorizon).run_append.mp ht
  exact ⟨u, t, hu, hut, cursor_of_run rfl (by decide) hu hut⟩

/-- A process on a fresh database. -/
def freshStream : StreamSys where
  world := {}

/-- A payment arrives while the first request is open, and is recorded; after a
restart the process goes on from its token. -/
theorem recorded_of_guarded_run_restarted : ∃ t,
    (stream testEnv testHorizon).run freshStream
        ([.start, .request 0, .ingest, .respond 1] ++ statements 7 ++ [.crash, .start, .request 1]) =
      some t ∧
    ∀ f j k, t.since = some f → t.world.db.cursor = (testHorizon.payments j).pagingToken → f ≤ k →
      k ≤ j → isAcceptedAsset (testHorizon.payments k) testEnv.config = true →
      hasEvent t.world.db (testHorizon.payments k).pagingToken = true := by
  obtain ⟨t, ht, -⟩ := (stream testEnv testHorizon).exists_of_leadsTo
    (fun t => t.since = some 0 ∧ t.world.db.cursor = "1") freshStream
    ([.start, .request 0, .ingest, .respond 1] ++ statements 7 ++ [.crash, .start, .request 1])
    (by decide +kernel)
  exact ⟨t, ht, recorded_of_guarded_run rfl rfl rfl (by decide +kernel) ht⟩

/-- The first attempt fails, and a payment arrives before the retry, which asks for
the payments from `now` on: the next payment is recorded and its token saved, the
payment in between is passed over. -/
theorem late_retry_skips_payment : ∃ t,
    (stream testEnv testHorizon).run freshStream
        ([.start, .request 0, .fail, .ingest, .request 1, .ingest, .respond 2] ++ statements 7) =
      some t ∧
    t.since = some 0 ∧ t.world.db.cursor = (testHorizon.payments 1).pagingToken ∧
    isAcceptedAsset (testHorizon.payments 0) testEnv.config = true ∧
    hasEvent t.world.db (testHorizon.payments 0).pagingToken = false :=
  (stream testEnv testHorizon).exists_of_leadsTo
    (fun t => t.since = some 0 ∧ t.world.db.cursor = (testHorizon.payments 1).pagingToken ∧
      isAcceptedAsset (testHorizon.payments 0) testEnv.config = true ∧
      hasEvent t.world.db (testHorizon.payments 0).pagingToken = false) freshStream _
    (by decide +kernel)

end Stargate.Reconciler
