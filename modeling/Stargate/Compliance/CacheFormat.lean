import Stargate.Base.Json
import Stargate.Base.NumberText
import Stargate.Reconciler.Processor

/-!
# The cached screening result (`compliance.service.ts`, `compliance.rs`)

Both services keep the result of a screening as JSON under `ofac:<address>`. The API writes
the risk score as whatever number it made of TRM's answer; the reconciler reads it as a `u8`.

- `freshScreening`, `cacheText`: what `screenAddress` caches on a miss;
- `fromStr`: `serde_json::from_str::<OfacResult>`;
- `common_iff`: the two agree on a cached value exactly if the score is a byte.
-/

namespace Stargate.Compliance

open Base Reconciler

/-! ## What `Number` makes of a JSON value -/

mutual

/-- `String(value)`; `none` is the `TypeError`: an object with a field `toString` has no
primitive value. -/
def toText : Json → Option (List Char)
  | .null => some "null".toList
  | .bool b => some (if b then "true".toList else "false".toList)
  | .number literal => some (JsNumber.ofDecimal literal).text
  | .string text => some text
  | .array items => (itemTexts items).map fun texts => [','].intercalate texts
  | .object fields =>
    if fields.any fun f => f.1 == "toString".toList then none
    else some "[object Object]".toList

/-- The texts that `join` puts together: `null` is left out. -/
def itemTexts : List Json → Option (List (List Char))
  | [] => some []
  | .null :: items => (itemTexts items).map fun texts => [] :: texts
  | item :: items =>
    match toText item, itemTexts items with
    | some text, some texts => some (text :: texts)
    | _, _ => none

end

/-- `Number(value)`. -/
def toNumber : Json → Option JsNumber
  | .null => some (.finite 0)
  | .bool b => some (.finite (if b then 1 else 0))
  | .number literal => some (JsNumber.ofDecimal literal)
  | .string text => some (JsNumber.ofText text)
  | value => (toText value).map JsNumber.ofText

/-! ## What the API writes -/

inductive Verdict where
  | clear
  | blocked
  | review
  deriving DecidableEq

def Verdict.text : Verdict → List Char
  | .clear => "clear".toList
  | .blocked => "blocked".toList
  | .review => "review".toList

/-- `ScreeningResult`. -/
structure ScreeningResult where
  result : Verdict
  riskScore : JsNumber
  deriving DecidableEq

/-- The environment that `screenAddress` reads. -/
structure ApiConfig where
  ofacScreeningEnabled : Option String
  trmLabsApiKey : Option String

/-- `!apiKey || apiKey === '...'`. -/
def ApiConfig.hasKey (config : ApiConfig) : Bool :=
  match config.trmLabsApiKey with
  | none => false
  | some apiKey => apiKey != "" && apiKey != "..."

/-- TRM is asked on a miss. -/
def ApiConfig.asksTrm (config : ApiConfig) : Bool :=
  config.ofacScreeningEnabled != some "false" && config.hasKey

/-- `payload?.[0]`; `none` is `undefined`. -/
def firstItem : Json → Option Json
  | .array items => items.head?
  | .string (c :: _) => some (.string [c])
  | payload => payload.get ['0']

/-- `payload?.[0]?.riskScore ?? 0`. -/
def riskScore (payload : Json) : Json :=
  match (firstItem payload).bind fun item => item.get "riskScore".toList with
  | none | some .null => .number ['0']
  | some value => value

/-- `{ result: risk >= 90 ? 'blocked' : risk >= 50 ? 'review' : 'clear', risk_score: risk }`. -/
def rate (risk : JsNumber) : ScreeningResult :=
  ⟨if risk.atLeast 90 then .blocked else if risk.atLeast 50 then .review else .clear, risk⟩

/-- The risk in TRM's answer; `none` where there is no answer, no JSON in it, or no number. -/
def riskOf (payload : Option Json) : Option JsNumber :=
  payload.bind fun payload => toNumber (riskScore payload)

/-- The result that `screenAddress` caches on a miss. -/
def freshScreening (config : ApiConfig) (payload : Option Json) : ScreeningResult :=
  if config.ofacScreeningEnabled = some "false" then ⟨.clear, .finite 0⟩
  else if !config.hasKey then ⟨.review, .finite 50⟩
  else match riskOf payload with
    | some risk => rate risk
    | none => ⟨.review, .finite 50⟩

/-- `JSON.stringify(result)`. -/
def cacheText (screening : ScreeningResult) : List Char :=
  Json.pairText "result".toList screening.result.text "risk_score".toList
    screening.riskScore.jsonText

/-! ## What the reconciler reads -/

/-- A `u8`: a literal of digits, up to 255. -/
def u8? : Json → Option Nat
  | .number literal => (digits? literal).filter fun n => n ≤ 255
  | _ => none

/-- The derived `Deserialize`: each field once, in any order, beside others; or the fields as
an array. -/
def ofacResult? : Json → Option OfacResult
  | .object fields =>
    match fields.filter fun f => f.1 == "result".toList,
      fields.filter fun f => f.1 == "risk_score".toList with
    | [(_, .string result)], [(_, score)] => (u8? score).map fun n => ⟨.ofList result, n⟩
    | _, _ => none
  | .array [.string result, score] => (u8? score).map fun n => ⟨.ofList result, n⟩
  | _ => none

/-- `serde_json::from_str::<OfacResult>`. -/
def fromStr (text : String) : Option OfacResult := (Json.parse text.toList).bind ofacResult?

/-- The reconciler with its JSON crate. -/
def serdeEnv (env : Env) : Env := { env with ofacFromStr := fromStr, ofacToStr := ofacJson }

/-- The fields of `JSON.parse(cached)` that callers of `screenAddress` use. -/
def readBack (text : List Char) : Option (List Char × JsNumber) :=
  match Json.parse text with
  | some value =>
    match value.get "result".toList, value.get "risk_score".toList with
    | some (.string result), some (.number literal) => some (result, .ofDecimal literal)
    | _, _ => none
  | none => none

/-! ## Scores that both read alike -/

section Format

variable {screening : ScreeningResult} {risk : JsNumber} {n : Nat}

/-- The characters of a number are those that a JSON number may have. -/
theorem isNumberChar_doubleText {x : ℚ} : ∀ c ∈ doubleText x, Json.isNumberChar c = true := by
  have hnumber : ∀ m s, ∀ c ∈ numberText m s, Json.isNumberChar c = true := fun m s c hc => by
    rcases mem_numberText hc with hdigit | hmark
    · simp [Json.isNumberChar, hdigit]
    · have hall : ['.', 'e', '+', '-'].all Json.isNumberChar = true := by decide
      exact List.all_eq_true.mp hall c hmark
  have hpositive : ∀ y, ∀ c ∈ positiveText y, Json.isNumberChar c = true := fun y c hc => by
    unfold positiveText at hc
    split at hc
    · exact hnumber _ _ c hc
    · cases hc
  intro c hc
  unfold doubleText at hc
  split_ifs at hc
  · cases List.mem_singleton.mp hc
    rfl
  · rcases List.mem_cons.mp hc with rfl | hc
    · rfl
    · exact hpositive _ c hc
  · exact hpositive _ c hc

/-- The value of the second field: `null`, or the literal, if it is a number. -/
def scoreValue : JsNumber → Option Json
  | .finite x =>
    if Json.isNumber (doubleText x) then some (.number (doubleText x)) else none
  | _ => some .null

/-- **What both services parse the cached text as.** -/
theorem parse_cacheText (screening : ScreeningResult) :
    Json.parse (cacheText screening) = (scoreValue screening.riskScore).map fun x =>
      .object [("result".toList, .string screening.result.text), ("risk_score".toList, x)] := by
  refine Json.parse_pair (by decide) ?_ (by decide) fun fuel => ?_
  · cases screening.result <;> decide
  · cases screening.riskScore with
    | nan => rfl
    | infinity negative => rfl
    | finite x =>
      show Json.parseValue (fuel + 1) (doubleText x ++ ['\x7d']) = _
      by_cases hne : doubleText x = []
      · rw [scoreValue, hne]
        rfl
      · rw [Json.parseValue_literal hne isNumberChar_doubleText, scoreValue]
        split <;> rfl

/-- The bytes among the numbers. -/
def IsByte (risk : JsNumber) : Prop := ∃ n ≤ 255, risk = .finite (n : Nat)

theorem digits?_eq_some {cs : List Char} (h : digits? cs = some n) :
    cs ≠ [] ∧ (∀ c ∈ cs, c.isDigit = true) ∧ n = Nat.ofDigitChars 10 cs 0 := by
  unfold digits? at h
  split at h
  · next hdigits => exact ⟨hdigits.1, List.all_eq_true.mp hdigits.2, (Option.some.inj h).symm⟩
  · cases h

/-- A byte is printed as a JSON number that reads back as it. -/
theorem byte_literal : ∀ n ≤ 255, Json.isNumber (Nat.toDigits 10 n) = true ∧
    u8? (.number (Nat.toDigits 10 n)) = some n := by
  decide +kernel

/-- The score that `serde_json` reads is the score that was written. -/
theorem u8?_scoreValue : (scoreValue risk).bind u8? = some n ↔ n ≤ 255 ∧ risk = .finite n := by
  constructor
  · intro h
    cases risk with
    | nan => cases h
    | infinity negative => cases h
    | finite x =>
      by_cases hnumber : Json.isNumber (doubleText x) = true
      · rw [scoreValue, if_pos hnumber, Option.bind_some] at h
        obtain ⟨hdigits, hbound⟩ := Option.filter_eq_some_iff.mp h
        have hle : n ≤ 255 := of_decide_eq_true hbound
        obtain ⟨hne, hall, rfl⟩ := digits?_eq_some hdigits
        exact ⟨hle, congrArg JsNumber.finite (eq_of_doubleText_digits hne hall (by omega))⟩
      · rw [scoreValue, if_neg hnumber] at h
        cases h
  · rintro ⟨hle, rfl⟩
    obtain ⟨hnumber, hbyte⟩ := byte_literal n hle
    rw [scoreValue, doubleText_natCast (by omega), if_pos hnumber]
    exact hbyte

/-- **What the reconciler reads is what the API wrote, if the score is a byte.** -/
theorem fromStr_cacheText (screening : ScreeningResult) :
    fromStr (.ofList (cacheText screening)) =
      ((scoreValue screening.riskScore).bind u8?).map fun n =>
        ⟨.ofList screening.result.text, n⟩ := by
  rw [fromStr, String.toList_ofList, parse_cacheText]
  cases scoreValue screening.riskScore with
  | none => rfl
  | some x => rfl

/-- Past a cached result a call goes on. -/
theorem afterScreen_goto (env : Env) (payment : HorizonPayment) (ofac : OfacResult) :
    ∃ pc, afterScreen env payment ofac = .goto pc := by
  unfold afterScreen
  split
  · exact ⟨_, rfl⟩
  · unfold startMatch
    split
    · exact ⟨_, rfl⟩
    · unfold startMemo
      split
      · exact ⟨_, rfl⟩
      · exact ⟨_, rfl⟩

/-- A call fails at the cached text exactly if `serde_json` refuses it. -/
theorem screenGet_fails_iff {env : Env} {now : Timestamp} {locked : Uuid → Bool} {w : World}
    {payment : HorizonPayment} {text : String}
    (hcached : w.redis.get (ofacKey payment.fromAddress) = some text) :
    exec env now locked w payment .screenGet = some (w, .ret false) ↔
      env.ofacFromStr text = none := by
  simp only [exec, hcached]
  cases env.ofacFromStr text with
  | none => exact iff_of_true rfl rfl
  | some ofac =>
    obtain ⟨pc, hpc⟩ := afterScreen_goto env payment ofac
    simp [hpc]

/-- A cached result on which the services agree. -/
structure Common (screening : ScreeningResult) : Prop where
  /-- The reconciler reads the verdict and the score that the API wrote. -/
  read : ∃ n : Nat, fromStr (.ofList (cacheText screening)) =
    some ⟨.ofList screening.result.text, n⟩ ∧ screening.riskScore = .finite n
  /-- No call of `process_payment` fails at it. -/
  passes : ∀ (env : Env) (now : Timestamp) (locked : Uuid → Bool) (w : World)
    (payment : HorizonPayment),
    w.redis.get (ofacKey payment.fromAddress) = some (.ofList (cacheText screening)) →
    exec (serdeEnv env) now locked w payment .screenGet ≠ some (w, .ret false)
  /-- The API reads what the reconciler writes. -/
  readBack : ∀ config : Config, readBack (ofacJson (freshOfac config)).toList =
    some ((freshOfac config).result.toList, .finite (freshOfac config).riskScore)

theorem readBack_freshOfac (config : Config) : readBack (ofacJson (freshOfac config)).toList =
    some ((freshOfac config).result.toList, .finite (freshOfac config).riskScore) := by
  unfold freshOfac
  split_ifs
  · decide +kernel
  · decide +kernel
  · decide +kernel

/-- The services agree exactly on the bytes. -/
theorem common_iff_isByte (screening : ScreeningResult) :
    Common screening ↔ IsByte screening.riskScore := by
  constructor
  · rintro ⟨⟨n, hread, hrisk⟩, -, -⟩
    rw [fromStr_cacheText] at hread
    obtain ⟨n', hn', heq⟩ := Option.map_eq_some_iff.mp hread
    obtain ⟨hle, hrisk'⟩ := u8?_scoreValue.mp hn'
    exact ⟨n', hle, hrisk'⟩
  · rintro ⟨n, hle, hrisk⟩
    have hread : fromStr (.ofList (cacheText screening)) =
        some ⟨.ofList screening.result.text, n⟩ := by
      rw [fromStr_cacheText, u8?_scoreValue.mpr ⟨hle, hrisk⟩]
      rfl
    refine ⟨⟨n, hread, hrisk⟩, fun env now locked w payment hcached hfails => ?_,
      readBack_freshOfac⟩
    have hnone := (screenGet_fails_iff hcached).mp hfails
    cases hread.symm.trans hnone

/-- **The cache format is common to both services exactly for the scores that are bytes**: if
TRM is asked and its answer has a number in it, that number is whole and from 0 to 255. -/
theorem common_iff (config : ApiConfig) (payload : Option Json) :
    Common (freshScreening config payload) ↔
      (config.asksTrm = true → ∀ risk, riskOf payload = some risk → IsByte risk) := by
  rw [common_iff_isByte]
  have hzero : IsByte (.finite 0) := ⟨0, by omega, rfl⟩
  have hfifty : IsByte (.finite 50) := ⟨50, by omega, rfl⟩
  unfold freshScreening
  split
  · next hdisabled => exact iff_of_true hzero (by simp [ApiConfig.asksTrm, hdisabled])
  · next henabled =>
    split
    · next hkey => exact iff_of_true hfifty (by simp_all [ApiConfig.asksTrm])
    · next hkey =>
      have hasks : config.asksTrm = true := by
        simpa [ApiConfig.asksTrm, henabled] using hkey
      cases hrisk : riskOf payload with
      | none => exact iff_of_true hfifty nofun
      | some risk =>
        refine ⟨fun h _ risk' heq => Option.some.inj heq ▸ h, fun h => h hasks risk rfl⟩

end Format

/-! ## An odd score -/

/-- `[{ "riskScore": score }]`. -/
def answer (score : Json) : Json := .array [.object [("riskScore".toList, score)]]

/-- With a key for TRM. -/
def withKey : ApiConfig := ⟨none, some "key"⟩

/-- A score of 95.5 blocks the address in the API; the reconciler cannot read it, and fails at
every payment from the address. -/
theorem odd_score_refused :
    (freshScreening withKey (some (answer (.number "95.5".toList)))).result = .blocked ∧
    fromStr (.ofList (cacheText
      (freshScreening withKey (some (answer (.number "95.5".toList)))))) = none ∧
    ¬ Common (freshScreening withKey (some (answer (.number "95.5".toList)))) := by
  have hnone : fromStr (.ofList (cacheText
      (freshScreening withKey (some (answer (.number "95.5".toList)))))) = none := by
    decide +kernel
  refine ⟨by decide +kernel, hnone, fun h => ?_⟩
  obtain ⟨n, hread, -⟩ := h.read
  cases hread.symm.trans hnone

end Stargate.Compliance
