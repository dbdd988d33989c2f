import Stargate.Base.EcmaScript
import Stargate.Base.JsonText

/-!
# Logs of one JSON text a line

What `JSON.stringify` writes has no line break in it, whatever the strings of the value hold. A
file of such texts is read back line by line, and what stands after the last line break is left
out.

- `Json.Visible`: no control character;
- `Json.visible_print`: a printed value is visible;
- `Json.lines`, `Json.readLines`: the file, and its values;
- `Json.readLines_lines`: the values are read back, also while a line is being written.
-/

namespace Stargate.Base

namespace Json

/-! ## Texts without control characters -/

/-- No control character, so no line break. -/
def Visible (cs : List Char) : Prop := ∀ c ∈ cs, 32 ≤ c.toNat

section Visible

variable {c : Char} {cs ds : List Char} {v : Json}

theorem visible_nil : Visible [] := fun _ h => nomatch h

theorem visible_cons (hc : 32 ≤ c.toNat) (hcs : Visible cs) : Visible (c :: cs) :=
  List.forall_mem_cons.mpr ⟨hc, hcs⟩

theorem visible_of_all (h : cs.all (fun c => 32 ≤ c.toNat) = true) : Visible cs :=
  fun c hc => of_decide_eq_true (List.all_eq_true.mp h c hc)

theorem Visible.append (hcs : Visible cs) (hds : Visible ds) : Visible (cs ++ ds) :=
  fun c hc => (List.mem_append.mp hc).elim (hcs c) (hds c)

/-- The characters after a backslash. -/
theorem toNat_of_escape? {d : Char} (h : escape? d = some c) : 32 ≤ d.toNat := by
  unfold escape? at h
  split at h
  all_goals first | decide | cases h

theorem toNat_digitChar : ∀ n < 16, 32 ≤ (Nat.digitChar n).toNat := by decide

theorem visible_escape (c : Char) : Visible (escape c) := by
  rcases escape_cases c with ⟨d, heq, hd⟩ | ⟨hlt, heq⟩ | ⟨-, -, hle, heq⟩
  · rw [heq]
    exact visible_cons (by decide) (visible_cons (toNat_of_escape? hd) visible_nil)
  · rw [heq]
    have hhigh := toNat_digitChar (c.toNat / 16) (by omega)
    have hlow := toNat_digitChar (c.toNat % 16) (by omega)
    intro d hd
    simp only [List.mem_cons, List.not_mem_nil, or_false] at hd
    rcases hd with rfl | rfl | rfl | rfl | rfl | rfl
    · decide
    · decide
    · decide
    · decide
    · exact hhigh
    · exact hlow
  · rw [heq]
    exact visible_cons hle visible_nil

theorem visible_quote (text : List Char) : Visible (quote text) := by
  refine visible_cons (by decide) (Visible.append ?_ (visible_cons (by decide) visible_nil))
  intro d hd
  obtain ⟨c, -, hc⟩ := List.mem_flatMap.mp hd
  exact visible_escape c d hc

theorem toNat_of_isNumberChar (h : isNumberChar c = true) : 32 ≤ c.toNat := by
  by_contra hlt
  have hall : ∀ n < 32, isNumberChar (Char.ofNat n) = false := by decide
  rw [← Char.ofNat_toNat c, hall c.toNat (not_le.mp hlt)] at h
  cases h

mutual

/-- **A printed value has no line break**: the strings in it are escaped. -/
theorem visible_print (v : Json) (hv : v.Printable) : Visible (print v) := by
  cases v with
  | null => exact visible_of_all (by decide)
  | bool b =>
    cases b with
    | true => exact visible_of_all (by decide)
    | false => exact visible_of_all (by decide)
  | number literal => exact fun c hc => toNat_of_isNumberChar ((isNumber_spec hv).2 c hc)
  | string text => exact visible_quote text
  | array items =>
    exact visible_cons (by decide)
      ((visible_printItems items hv).append (visible_cons (by decide) visible_nil))
  | object fields =>
    exact visible_cons (by decide)
      ((visible_printFields fields hv).append (visible_cons (by decide) visible_nil))

theorem visible_printItems (items : List Json) (hitems : PrintableItems items) :
    Visible (printItems items) := by
  match items with
  | [] => exact visible_nil
  | item :: items =>
    refine (visible_print item hitems.1).append ?_
    split
    · exact visible_nil
    · exact visible_cons (by decide) (visible_printItems items hitems.2)

theorem visible_printFields (fields : List (List Char × Json)) (hfields : PrintableFields fields) :
    Visible (printFields fields) := by
  match fields with
  | [] => exact visible_nil
  | (name, value) :: fields =>
    refine (visible_quote name).append (visible_cons (by decide) ?_)
    refine (visible_print value hfields.1).append ?_
    split
    · exact visible_nil
    · exact visible_cons (by decide) (visible_printFields fields hfields.2)

end

end Visible

/-! ## Files -/

/-- The texts of values, each with a line break after it. -/
def lines (vs : List Json) : List Char := vs.flatMap fun v => print v ++ ['\n']

/-- The values of a file; a line that is not finished is left out. -/
def readLines (cs : List Char) : List (Option Json) := (cs.splitOn '\n').dropLast.map parse

/-- **The file is read back**, with each value on a line of its own. -/
theorem readLines_lines {vs : List Json} (hvs : ∀ v ∈ vs, v.Printable) {rest : List Char}
    (hrest : '\n' ∉ rest) : readLines (lines vs ++ rest) = vs.map some := by
  have hfoldr : lines vs ++ rest
      = (vs.map print).foldr (fun part tail => part ++ '\n' :: tail) rest := by
    induction vs with
    | nil => rfl
    | cons v vs ih =>
      have := ih fun u hu => hvs u (List.mem_cons_of_mem v hu)
      simp only [lines, List.flatMap_cons, List.map_cons, List.foldr_cons, List.append_assoc,
        List.cons_append, List.nil_append] at this ⊢
      rw [this]
  have hparts : ∀ part ∈ vs.map print, '\n' ∉ part := by
    intro part hpart hmem
    obtain ⟨v, hv, rfl⟩ := List.mem_map.mp hpart
    exact absurd (visible_print v (hvs v hv) '\n' hmem) (by decide)
  rw [readLines, hfoldr, splitOn_foldr hparts hrest, List.dropLast_concat, List.map_map]
  exact List.map_congr_left fun v hv => parse_print (hvs v hv)

end Json

end Stargate.Base
