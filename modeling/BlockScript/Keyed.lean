/-!
# Lists with keys

A list whose entries carry a key and stand in the order in which their keys first came in.  `put` replaces the
entry of a key where it stands, or appends the entry of a new key.

* `get?_put_self` and `get?_put_of_ne` say what `put` does to `get?`;
* `map_key_put` says what it does to the keys.
-/

namespace BlockScript.Keyed

variable {α : Type _} (key : α → String)

/-- The first entry with the key `k`. -/
def get? (k : String) (l : List α) : Option α :=
  l.find? (key · == k)

/-- Whether some entry has the key `k`. -/
def has (k : String) (l : List α) : Bool :=
  l.any (key · == k)

/-- Replaces the entry that has the key of `a`, or appends `a`. -/
def put (a : α) : List α → List α
  | [] => [a]
  | b :: rest => if key b = key a then a :: rest else b :: put a rest

/-- The entries of a list put in one after the other. -/
def collect (l : List α) : List α :=
  l.foldl (fun acc a => put key a acc) []

theorem get?_put_self (a : α) (l : List α) : get? key (key a) (put key a l) = some a := by
  induction l with
  | nil => simp [get?, put]
  | cons b l ih =>
    by_cases h : key b = key a
    · simp [get?, put, h]
    · simpa [get?, put, h] using ih

theorem get?_put_of_ne {a : α} {k : String} (h : k ≠ key a) (l : List α) :
    get? key k (put key a l) = get? key k l := by
  induction l with
  | nil => simp [get?, put, Ne.symm h]
  | cons b l ih =>
    by_cases hb : key b = key a
    · simp [get?, put, hb, Ne.symm h]
    · by_cases hk : key b = k
      · subst hk
        simp [get?, put, hb]
      · simpa [get?, put, hb, List.find?_cons, hk] using ih

/-- Putting an entry keeps the keys and their order, apart from a new key at the end. -/
theorem map_key_put (a : α) (l : List α) :
    (put key a l).map key = if key a ∈ l.map key then l.map key else l.map key ++ [key a] := by
  induction l with
  | nil => simp [put]
  | cons b l ih =>
    by_cases h : key b = key a
    · simp [put, h]
    · by_cases hm : key a ∈ l.map key
      · simp [put, h, ih, hm]
      · simp [put, h, ih, hm, Ne.symm h]

end BlockScript.Keyed
