import Mathlib.Data.List.Dedup
import Mathlib.Data.List.Sort
import Mathlib.Data.Prod.Lex

/-!
# Sorted sets under keys

The commands `ZADD`, `EXPIRE` and `ZRANGE` of a key-value store. A sorted set has a score for
each of its members; a key may have a deadline, after which it is gone.

- `SortedSet`: members are distinct by construction;
- `members_zadd`: adding a member that is there changes its score only;
- `perm_zrange`: a range over all ranks lists the members;
- `Stores.zadd_self`, `Stores.zadd_of_ne`: what a command does to each key.
-/

namespace Stargate.Base

variable {κ α : Type}

/-! ## One set -/

/-- Members with scores. -/
structure SortedSet (α : Type) where
  entries : List (α × Nat)
  nodup : (entries.map Prod.fst).Nodup

namespace SortedSet

def empty : SortedSet α := ⟨[], List.nodup_nil⟩

def members (s : SortedSet α) : List α := s.entries.map Prod.fst

theorem nodup_members (s : SortedSet α) : s.members.Nodup := s.nodup

section Add

variable [DecidableEq α]

/-- Give a member its score, or add it. -/
def scored (m : α) (score : Nat) (entries : List (α × Nat)) : List (α × Nat) :=
  if m ∈ entries.map Prod.fst then
    entries.map fun e => if e.1 = m then (m, score) else e
  else entries ++ [(m, score)]

theorem map_fst_scored (m : α) (score : Nat) (entries : List (α × Nat)) :
    (scored m score entries).map Prod.fst
      = if m ∈ entries.map Prod.fst then entries.map Prod.fst
        else entries.map Prod.fst ++ [m] := by
  unfold scored
  split
  · rw [List.map_map]
    refine List.map_congr_left fun e _ => ?_
    show (if e.1 = m then (m, score) else e).1 = e.1
    split
    · next h => exact h.symm
    · rfl
  · rw [List.map_append, List.map_singleton]

/-- `ZADD key score member`. -/
def zadd (s : SortedSet α) (score : Nat) (m : α) : SortedSet α where
  entries := scored m score s.entries
  nodup := by
    rw [map_fst_scored]
    split
    · exact s.nodup
    · next h => exact List.nodup_append.mpr ⟨s.nodup, List.nodup_singleton m, by
        intro a ha b hb heq
        rw [heq, List.mem_singleton.mp hb] at ha
        exact h ha⟩

/-- **A member that is there is not added again.** -/
theorem members_zadd (s : SortedSet α) (score : Nat) (m : α) :
    (s.zadd score m).members = if m ∈ s.members then s.members else s.members ++ [m] :=
  map_fst_scored m score s.entries

theorem mem_zadd {s : SortedSet α} {score : Nat} {m a : α} :
    a ∈ (s.zadd score m).members ↔ a = m ∨ a ∈ s.members := by
  rw [members_zadd]
  split
  · next h =>
    constructor
    · exact .inr
    · rintro (rfl | ha)
      · exact h
      · exact ha
  · rw [List.mem_append, List.mem_singleton, or_comm]

end Add

/-- `ZRANGE key 0 -1`: by score, and by member where scores are equal. -/
def zrange [LinearOrder α] (s : SortedSet α) : List α :=
  (s.entries.insertionSort fun e f => e.2 < f.2 ∨ e.2 = f.2 ∧ e.1 ≤ f.1).map Prod.fst

theorem perm_zrange [LinearOrder α] (s : SortedSet α) : s.zrange.Perm s.members :=
  (List.perm_insertionSort _ s.entries).map _

end SortedSet

/-! ## Keys -/

/-- What is stored under each key, with its deadline. -/
def Stores (κ α : Type) : Type := κ → Option (SortedSet α × Option Nat)

namespace Stores

/-- What is stored under a key now: nothing, once its deadline has come. -/
def live (db : Stores κ α) (now : Nat) (key : κ) : Option (SortedSet α × Option Nat) :=
  (db key).filter fun e => e.2.all fun deadline => now < deadline

/-- Before its deadline a key is there. -/
theorem live_eq {db : Stores κ α} {now : Nat} {key : κ}
    (h : ∀ s deadline, db key = some (s, some deadline) → now < deadline) :
    db.live now key = db key := by
  unfold live
  cases hkey : db key with
  | none => rfl
  | some e =>
    obtain ⟨s, deadline⟩ := e
    cases deadline with
    | none => rfl
    | some d => exact if_pos (decide_eq_true (h s d hkey))

variable [DecidableEq κ]

def put (db : Stores κ α) (key : κ) (e : Option (SortedSet α × Option Nat)) : Stores κ α :=
  fun k => if k = key then e else db k

@[simp] theorem put_self (db : Stores κ α) (key : κ) (e : Option (SortedSet α × Option Nat)) :
    db.put key e key = e := if_pos rfl

@[simp] theorem put_of_ne {db : Stores κ α} {key k : κ} {e : Option (SortedSet α × Option Nat)}
    (h : k ≠ key) : db.put key e k = db k := if_neg h

/-- `ZADD`: a new set has no deadline, and an old one keeps its own. -/
def zadd [DecidableEq α] (db : Stores κ α) (now : Nat) (key : κ) (score : Nat) (m : α) :
    Stores κ α :=
  let (s, deadline) := (db.live now key).getD (.empty, none)
  db.put key (some (s.zadd score m, deadline))

theorem zadd_self [DecidableEq α] (db : Stores κ α) (now : Nat) (key : κ) (score : Nat) (m : α) :
    db.zadd now key score m key
      = some ((((db.live now key).getD (.empty, none)).1.zadd score m),
          ((db.live now key).getD (.empty, none)).2) :=
  put_self ..

theorem zadd_of_ne [DecidableEq α] (db : Stores κ α) {now score : Nat} {key k : κ} {m : α}
    (h : k ≠ key) : db.zadd now key score m k = db k :=
  put_of_ne h

/-- `EXPIRE`, in milliseconds. -/
def expire (db : Stores κ α) (now : Nat) (key : κ) (ms : Nat) : Stores κ α :=
  db.put key ((db.live now key).map fun e => (e.1, some (now + ms)))

theorem expire_self {db : Stores κ α} {now : Nat} {key : κ} {e : SortedSet α × Option Nat}
    (h : db.live now key = some e) (ms : Nat) :
    db.expire now key ms key = some (e.1, some (now + ms)) := by
  rw [expire, h, put_self, Option.map_some]

theorem expire_of_ne (db : Stores κ α) {now ms : Nat} {key k : κ} (h : k ≠ key) :
    db.expire now key ms k = db k :=
  put_of_ne h

/-- `ZRANGE key 0 -1`. -/
def zrange [LinearOrder α] (db : Stores κ α) (now : Nat) (key : κ) : List α :=
  match db.live now key with
  | some (s, _) => s.zrange
  | none => []

end Stores

end Stargate.Base
