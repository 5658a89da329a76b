import Mathlib.Data.List.Basic

/-!
# JSON values and attribute bags

Attribute values are JSON. The fields of an object stand in key order, the order
`json.Marshal` writes them in, so that two values are equal exactly when the code's
comparison of their marshalled bytes says so. Numbers keep their literal text.

A bag is Go's `map[string]any`: only its lookups matter, never the order of its
entries, and a key occurs in `Bag.keys` once.
-/

namespace Rimsky

inductive Json where
  | null
  | bool (value : Bool)
  | num (text : String)
  | str (text : String)
  | arr (items : List Json)
  | obj (fields : List (String × Json))
  deriving Repr, Inhabited

namespace Json

mutual

def same : Json → Json → Bool
  | .null, .null => true
  | .bool a, .bool b => a == b
  | .num a, .num b => a == b
  | .str a, .str b => a == b
  | .arr a, .arr b => sameItems a b
  | .obj a, .obj b => sameFields a b
  | _, _ => false

def sameItems : List Json → List Json → Bool
  | [], [] => true
  | a :: as, b :: bs => same a b && sameItems as bs
  | _, _ => false

def sameFields : List (String × Json) → List (String × Json) → Bool
  | [], [] => true
  | (k, a) :: as, (l, b) :: bs => k == l && same a b && sameFields as bs
  | _, _ => false

end

mutual

theorem same_iff : ∀ a b : Json, same a b = true ↔ a = b
  | .null, b => by cases b <;> simp [same]
  | .bool _, b => by cases b <;> simp [same]
  | .num _, b => by cases b <;> simp [same]
  | .str _, b => by cases b <;> simp [same]
  | .arr items, b => by
    cases b with
    | arr others => simpa [same] using sameItems_iff items others
    | _ => simp [same]
  | .obj fields, b => by
    cases b with
    | obj others => simpa [same] using sameFields_iff fields others
    | _ => simp [same]

theorem sameItems_iff : ∀ as bs : List Json, sameItems as bs = true ↔ as = bs
  | [], bs => by cases bs <;> simp [sameItems]
  | a :: as, bs => by
    cases bs with
    | nil => simp [sameItems]
    | cons b bs => simp [sameItems, same_iff a b, sameItems_iff as bs]

theorem sameFields_iff : ∀ as bs : List (String × Json), sameFields as bs = true ↔ as = bs
  | [], bs => by cases bs <;> simp [sameFields]
  | (k, a) :: as, bs => by
    cases bs with
    | nil => simp [sameFields]
    | cons b bs =>
      obtain ⟨l, b⟩ := b
      simp [sameFields, same_iff a b, sameFields_iff as bs]

end

instance : DecidableEq Json := fun a b => decidable_of_iff (same a b = true) (same_iff a b)

/-- The escape of a character inside a JSON string literal, with Go's escapes for HTML. -/
def escapeChar (c : Char) : List Char :=
  if c = '"' then ['\\', '"']
  else if c = '\\' then ['\\', '\\']
  else if c = '\n' then ['\\', 'n']
  else if c = '\r' then ['\\', 'r']
  else if c = '\t' then ['\\', 't']
  else if c = '\x08' then ['\\', 'b']
  else if c = '\x0c' then ['\\', 'f']
  else if c = '\u2028' then "\\u2028".toList
  else if c = '\u2029' then "\\u2029".toList
  else if c.toNat < 32 || c ∈ ['<', '>', '&'] then
    '\\' :: 'u' :: '0' :: '0' :: [Nat.digitChar (c.toNat / 16), Nat.digitChar (c.toNat % 16)]
  else [c]

def quote (text : List Char) : List Char := '"' :: text.flatMap escapeChar ++ ['"']

mutual

/-- `json.Marshal`. -/
def marshal : Json → List Char
  | .null => "null".toList
  | .bool value => if value then "true".toList else "false".toList
  | .num text => text.toList
  | .str text => quote text.toList
  | .arr items => '[' :: marshalItems items
  | .obj fields => '\x7b' :: marshalFields fields

def marshalItems : List Json → List Char
  | [] => [']']
  | [item] => marshal item ++ [']']
  | item :: items => marshal item ++ ',' :: marshalItems items

def marshalFields : List (String × Json) → List Char
  | [] => ['\x7d']
  | [(key, value)] => quote key.toList ++ ':' :: marshal value ++ ['\x7d']
  | (key, value) :: fields => quote key.toList ++ ':' :: marshal value ++
    ',' :: marshalFields fields

end

/-- `stringifyAny`: strings and numbers as their text, everything else as JSON. -/
def stringify : Json → List Char
  | .str text => text.toList
  | value => marshal value

end Json

/-- `json.RawMessage`: its bytes, and the value that they are parsed to. -/
structure RawMessage where
  text : String
  value : Option Json := none
  deriving DecidableEq, Repr

/-- What `json.Marshal` makes of a value. -/
def Json.raw (value : Json) : RawMessage := ⟨String.ofList value.marshal, some value⟩

/-- The bytes of a message, none if it is absent. -/
def RawMessage.bytes (raw : Option RawMessage) : String := (raw.map (·.text)).getD ""

/-- Go's `map[string]any`. -/
abbrev Bag := List (String × Json)

namespace Bag

variable (bag : Bag) (key : String)

def get? : Option Json := List.lookup key bag

def getD : Json := (bag.get? key).getD .null

def has : Bool := (bag.get? key).isSome

def keys : List String := (bag.map Prod.fst).eraseDups

def set (value : Json) : Bag := (key, value) :: bag

/-- `mergeAttributesDelta`: the entries of `delta` over those of `base`. -/
def merge (base delta : Bag) : Bag := delta ++ base

def same (a b : Bag) : Bool :=
  a.keys.all (fun key => a.get? key == b.get? key) &&
    b.keys.all (fun key => a.get? key == b.get? key)

theorem get?_cons (key other : String) (value : Json) (bag : Bag) :
    Bag.get? ((key, value) :: bag) other = if other = key then some value else bag.get? other := by
  unfold get?
  by_cases equal : other = key
  · simp [equal]
  · have differs : (other == key) = false := by simpa using equal
    simp [List.lookup_cons, differs, equal]

theorem get?_set (key other : String) (value : Json) :
    (bag.set key value).get? other = if other = key then some value else bag.get? other :=
  get?_cons key other value bag

theorem mem_keys_iff : key ∈ bag.keys ↔ (bag.get? key).isSome := by
  unfold keys
  induction bag with
  | nil => simp [get?]
  | cons entry bag ih =>
    obtain ⟨k, v⟩ := entry
    rw [get?_cons]
    by_cases equal : key = k
    · simp [equal]
    · simp [equal, ← ih]

theorem same_iff (a b : Bag) : a.same b = true ↔ ∀ key, a.get? key = b.get? key := by
  unfold same
  simp only [Bool.and_eq_true, List.all_eq_true, beq_iff_eq, mem_keys_iff]
  constructor
  · rintro ⟨left, right⟩ key
    cases inA : a.get? key with
    | some value => rw [← inA]; exact left key (by simp [inA])
    | none =>
      cases inB : b.get? key with
      | some value => simpa [inA, inB] using right key (by simp [inB])
      | none => rfl
  · intro equal
    exact ⟨fun key _ => equal key, fun key _ => equal key⟩

end Bag

end Rimsky
