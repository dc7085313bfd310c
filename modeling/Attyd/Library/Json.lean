import Mathlib.Algebra.GroupWithZero.Nat
import Mathlib.Data.Fintype.Basic
import Mathlib.Algebra.BigOperators.Group.Finset.Basic

/-!
# JSON values with extensional objects

An object is a finite set of keys with one value for each key, so two objects
are equal exactly when they hold the same fields, in whatever order they were
written, and no key occurs twice. A number is an integer or a float; a float is
named by the shortest decimal text that reads back as it, the text a compact
printer writes.

## Implementation notes

The members of an object are a function on its key set. Reading, writing and
removing a field are then the three operations a proof needs, and `eq_of_get`
compares two objects field by field.

Equality of trees is equality of what is printed. A program that compares trees
compares floats by value, and the two zeros print differently but have one
value: `alike` is that comparison.
-/

namespace Attyd.Json

/-- An integer, or a finite float under the text a compact printer gives it. -/
inductive Number where
  | int (value : Int)
  | float (text : String)
  deriving DecidableEq

/-- The number that comparisons see: a zero float has no sign. -/
def Number.unsigned : Number → Number
  | .float "-0.0" => .float "0.0"
  | n => n

/-- A JSON tree whose objects cannot repeat a key. -/
inductive Value where
  | null
  | bool (value : Bool)
  | number (value : Number)
  | string (value : String)
  | array (items : List Value)
  | object (keys : Finset String) (field : {k // k ∈ keys} → Value)

namespace Value

instance : Inhabited Value := ⟨null⟩

mutual

/-- Equality of trees, decided by recursion on the first one. -/
def decEq : (v w : Value) → Decidable (v = w)
  | null, null => isTrue rfl
  | bool a, bool b => decidable_of_iff (a = b) (by simp)
  | number a, number b => decidable_of_iff (a = b) (by simp)
  | string a, string b => decidable_of_iff (a = b) (by simp)
  | array xs, array ys =>
      match decEqList xs ys with
      | isTrue h => isTrue (by rw [h])
      | isFalse h => isFalse (by simpa using h)
  | object keys field, object keys' field' =>
      if hk : keys = keys' then
        have : Decidable (∀ k : {k // k ∈ keys}, field k = field' ⟨k.1, hk ▸ k.2⟩) :=
          @Fintype.decidableForallFintype _ _ (fun k => decEq (field k) _) _
        if h : ∀ k : {k // k ∈ keys}, field k = field' ⟨k.1, hk ▸ k.2⟩ then
          isTrue (by subst hk; congr; funext k; exact h k)
        else
          isFalse (by
            intro he
            subst hk
            injection he with _ he
            exact h fun k => by rw [he])
      else isFalse (by intro he; injection he with he; exact hk he)
  | null, bool _ | null, number _ | null, string _ | null, array _ | null, object _ _
  | bool _, null | bool _, number _ | bool _, string _ | bool _, array _ | bool _, object _ _
  | number _, null | number _, bool _ | number _, string _ | number _, array _
  | number _, object _ _ | string _, null | string _, bool _ | string _, number _
  | string _, array _ | string _, object _ _ | array _, null | array _, bool _
  | array _, number _ | array _, string _ | array _, object _ _ | object _ _, null
  | object _ _, bool _ | object _ _, number _ | object _ _, string _ | object _ _, array _ =>
      isFalse (by simp)

/-- Equality of lists of trees, item by item. -/
def decEqList : (xs ys : List Value) → Decidable (xs = ys)
  | [], [] => isTrue rfl
  | x :: xs, y :: ys =>
      match decEq x y, decEqList xs ys with
      | isTrue h, isTrue h' => isTrue (by rw [h, h'])
      | isFalse h, _ => isFalse (by simp [h])
      | _, isFalse h => isFalse (by simp [h])
  | [], _ :: _ => isFalse (by simp)
  | _ :: _, [] => isFalse (by simp)

end

instance : DecidableEq Value := decEq

/-- The member of an object under a key; nothing for any other tree. -/
def get : Value → String → Option Value
  | object keys field, k => if h : k ∈ keys then some (field ⟨k, h⟩) else none
  | _, _ => none

/-- The member under a key, with `null` for a missing one. -/
def index (v : Value) (k : String) : Value := (v.get k).getD null

def isObject : Value → Bool
  | object _ _ => true
  | _ => false

def isArray : Value → Bool
  | array _ => true
  | _ => false

def isNull : Value → Bool
  | null => true
  | _ => false

def isString : Value → Bool
  | string _ => true
  | _ => false

/-- The text of a string tree. -/
def asStr : Value → Option String
  | string s => some s
  | _ => none

/-- The flag of a Boolean tree. -/
def asBool : Value → Option Bool
  | bool b => some b
  | _ => none

/-- The value of a number tree that fits 64 bits without a sign. -/
def asU64 : Value → Option Nat
  | number (.int n) => if 0 ≤ n ∧ n < 2 ^ 64 then some n.toNat else none
  | _ => none

/-- The items of an array tree. -/
def asArray : Value → Option (List Value)
  | array xs => some xs
  | _ => none

/-- The string under a key, when the key is there and holds a string. -/
def getStr (v : Value) (k : String) : Option String := (v.get k).bind asStr

/-- The tree at the end of a path of keys. -/
def pointer (v : Value) (path : List String) : Option Value := path.foldlM get v

/-- The object without members. -/
def empty : Value := object ∅ fun k => absurd k.2 (Finset.notMem_empty _)

/-- Write one member of an object; every other tree is left as it is. -/
def set : Value → String → Value → Value
  | object keys field, k, v =>
      object (insert k keys) fun j =>
        if h : j.1 ∈ keys then if j.1 = k then v else field ⟨j.1, h⟩ else v
  | other, _, _ => other

/-- Drop one member of an object; every other tree is left as it is. -/
def remove : Value → String → Value
  | object keys field, k =>
      object (keys.erase k) fun j => field ⟨j.1, Finset.mem_of_mem_erase j.2⟩
  | other, _ => other

/-- The object over a key set whose members a lookup names. -/
def ofLookup (keys : Finset String) (f : String → Option Value) : Value :=
  object (keys.filter fun k => (f k).isSome) fun k => (f k.1).get (Finset.mem_filter.mp k.2).2

/-- The keys of an object. -/
def keys : Value → Finset String
  | object keys _ => keys
  | _ => ∅

/-- The members of an object whose keys pass a test; every other tree is left as it is. -/
def retainKeys (keep : String → Bool) : Value → Value
  | object keys field =>
      ofLookup keys fun k => if keep k then (object keys field).get k else none
  | other => other

/-- The tree of a count. -/
def ofNat (n : Nat) : Value := number (.int n)

/-- The tree of a text, `null` for none. -/
def ofOption : Option Value → Value
  | some v => v
  | none => null

/-- Write every member of `patch` that is not `null` into `target`. -/
def patch : (target patch : Value) → Value
  | object keys field, object keys' field' =>
      ofLookup (keys ∪ keys') fun k =>
        ((object keys' field').get k).filter (!·.isNull) <|> (object keys field).get k
  | target, _ => target

/-- Write every member of `fields` into `target`, `null` included. -/
def mergeFields : (target fields : Value) → Value
  | object keys field, object keys' field' =>
      ofLookup (keys ∪ keys') fun k => (object keys' field').get k <|> (object keys field).get k
  | target, _ => target

mutual

/-- The tree with its numbers as comparisons see them. -/
def unsigned : Value → Value
  | null => null
  | bool b => bool b
  | number n => number n.unsigned
  | string s => string s
  | array xs => array (unsignedList xs)
  | object keys field => object keys fun k => (field k).unsigned

def unsignedList : List Value → List Value
  | [] => []
  | x :: xs => x.unsigned :: unsignedList xs

end

/-- Whether a program finds two trees equal. -/
def alike (v w : Value) : Bool := v.unsigned = w.unsigned

/-- Whether a program finds two lists of trees equal. -/
def alikeList (vs ws : List Value) : Bool := vs.map unsigned = ws.map unsigned

/-- The object that holds the listed members, a later one replacing an earlier
one of the same key. -/
def ofFields (fields : List (String × Value)) : Value :=
  fields.foldl (fun acc f => acc.set f.1 f.2) empty

@[simp] theorem isObject_empty : empty.isObject = true := rfl

@[simp] theorem get_empty (k : String) : empty.get k = none := by
  simp [empty, get]

@[simp] theorem isObject_set (v : Value) (k : String) (x : Value) :
    (v.set k x).isObject = v.isObject := by
  cases v <;> rfl

@[simp] theorem isObject_remove (v : Value) (k : String) :
    (v.remove k).isObject = v.isObject := by
  cases v <;> rfl

/-- Only an object answers a field read. -/
theorem isObject_of_get {v x : Value} {k : String} (h : v.get k = some x) :
    v.isObject = true := by
  cases v <;> simp_all [get, isObject]

theorem isObject_of_getStr {v : Value} {k s : String} (h : v.getStr k = some s) :
    v.isObject = true := by
  obtain ⟨x, hx, -⟩ := Option.bind_eq_some_iff.mp h
  exact isObject_of_get hx

/-- A write is seen under its own key only. -/
theorem get_set {v : Value} (hv : v.isObject = true) (k j : String) (x : Value) :
    (v.set k x).get j = if j = k then some x else v.get j := by
  cases v with
  | object keys field =>
      by_cases hj : j = k
      · subst hj
        by_cases hm : j ∈ keys <;> simp [set, get, hm]
      · by_cases hm : j ∈ keys <;> simp [set, get, hm, hj]
  | _ => simp [isObject] at hv

theorem get_set_self {v : Value} (hv : v.isObject = true) (k : String) (x : Value) :
    (v.set k x).get k = some x := by
  simp [get_set hv]

/-- A write leaves every other member alone, whatever the tree is. -/
@[simp] theorem get_set_of_ne {j k : String} (h : j ≠ k) (v x : Value) :
    (v.set k x).get j = v.get j := by
  cases hv : v.isObject with
  | true => simp [get_set hv, h]
  | false => cases v <;> simp_all [set, isObject]

private theorem get_foldl_set (fields : List (String × Value)) {v : Value}
    (hv : v.isObject = true) (k : String) :
    (fields.foldl (fun acc f => acc.set f.1 f.2) v).get k =
      (fields.reverse.lookup k).or (v.get k) := by
  induction fields generalizing v with
  | nil => simp
  | cons f fields ih =>
      obtain ⟨name, x⟩ := f
      rw [List.foldl_cons, ih ((isObject_set v name x).trans hv), List.reverse_cons,
        List.lookup_append, Option.or_assoc, get_set hv]
      congr 1
      by_cases h : k = name
      · simp [h]
      · simp [h, List.lookup_cons, beq_false_of_ne h]

/-- The last of the fields of a name is the member of that name. -/
theorem get_ofFields (fields : List (String × Value)) (k : String) :
    (ofFields fields).get k = fields.reverse.lookup k := by
  rw [ofFields, get_foldl_set fields isObject_empty, get_empty, Option.or_none]

/-- A removal is seen under its own key only. -/
theorem get_remove (v : Value) (k j : String) :
    (v.remove k).get j = if j = k then none else v.get j := by
  cases v with
  | object keys field =>
      by_cases hj : j = k
      · simp [remove, get, hj]
      · by_cases hm : j ∈ keys <;> simp [remove, get, hm, hj]
  | _ => simp [remove, get]

theorem get_ofLookup (keys : Finset String) (f : String → Option Value) (k : String) :
    (ofLookup keys f).get k = if k ∈ keys then f k else none := by
  by_cases hk : k ∈ keys
  · cases hf : f k with
    | none => simp [ofLookup, get, hk, hf]
    | some x => simp [ofLookup, get, hk, hf]
  · simp [ofLookup, get, hk]

theorem mem_keys_of_get {keys : Finset String} {field : {k // k ∈ keys} → Value} {k : String}
    {x : Value} (h : (object keys field).get k = some x) : k ∈ keys := by
  by_contra hk
  simp [get, hk] at h

@[simp] theorem isObject_patch (target p : Value) :
    (target.patch p).isObject = target.isObject := by
  cases target <;> cases p <;> rfl

/-- A patch answers with its own member unless that is missing or `null`. -/
theorem get_patch {target p : Value} (ht : target.isObject = true) (hp : p.isObject = true)
    (k : String) :
    (target.patch p).get k = ((p.get k).filter (!·.isNull) <|> target.get k) := by
  cases target with
  | object keys field =>
      cases p with
      | object keys' field' =>
          rw [patch, get_ofLookup]
          by_cases hk : k ∈ keys ∪ keys'
          · rw [if_pos hk]
          · rw [if_neg hk]
            have hk := Finset.notMem_union.mp hk
            simp [get, hk]
      | _ => simp [isObject] at hp
  | _ => simp [isObject] at ht

/-- A merge answers with the member written last. -/
theorem get_mergeFields {target fields : Value} (ht : target.isObject = true)
    (hf : fields.isObject = true) (k : String) :
    (target.mergeFields fields).get k = (fields.get k <|> target.get k) := by
  cases target with
  | object keys field =>
      cases fields with
      | object keys' field' =>
          rw [mergeFields, get_ofLookup]
          by_cases hk : k ∈ keys ∪ keys'
          · rw [if_pos hk]
          · rw [if_neg hk]
            have hk := Finset.notMem_union.mp hk
            simp [get, hk]
      | _ => simp [isObject] at hf
  | _ => simp [isObject] at ht

/-- Two objects with the same members are the same tree. -/
theorem eq_of_get {v w : Value} (hv : v.isObject = true) (hw : w.isObject = true)
    (h : ∀ k, v.get k = w.get k) : v = w := by
  cases v with
  | object keys field =>
      cases w with
      | object keys' field' =>
          have hk : keys = keys' := by
            ext k
            have := h k
            by_cases hm : k ∈ keys <;> by_cases hm' : k ∈ keys' <;>
              simp_all [get]
          subst hk
          congr
          funext k
          have := h k.1
          simpa [get, k.2] using this
      | _ => simp [isObject] at hw
  | _ => simp [isObject] at hv

/-- The second of two writes under one key is the one that stays. -/
theorem set_set (v : Value) (k : String) (x y : Value) :
    (v.set k x).set k y = v.set k y := by
  cases hv : v.isObject with
  | true =>
      apply eq_of_get (by simp [hv]) (by simp [hv])
      intro j
      by_cases hj : j = k <;> simp [get_set, hv, hj]
  | false => cases v <;> simp_all [set, isObject]

theorem getStr_set_of_ne {j k : String} (h : j ≠ k) (v x : Value) :
    (v.set k x).getStr j = v.getStr j := by
  simp [getStr, h]

theorem getStr_set_self {v : Value} (hv : v.isObject = true) (k : String) (x : Value) :
    (v.set k x).getStr k = x.asStr := by
  simp [getStr, get_set_self hv]

theorem getStr_eq_some {v : Value} {k s : String} :
    v.getStr k = some s ↔ v.get k = some (string s) := by
  constructor
  · intro h
    obtain ⟨x, hx, hs⟩ := Option.bind_eq_some_iff.mp h
    cases x <;> simp_all [asStr]
  · intro h
    simp [getStr, h, asStr]

theorem index_eq_string {v : Value} {k s : String} :
    v.index k = string s ↔ v.getStr k = some s := by
  rw [getStr_eq_some]
  cases h : v.get k with
  | none => simp [index, h]
  | some x => simp [index, h]

section Comparison

variable {v w : Value}

theorem alike_iff : v.alike w = true ↔ v.unsigned = w.unsigned := decide_eq_true_iff

theorem get_unsigned (v : Value) (k : String) : v.unsigned.get k = (v.get k).map unsigned := by
  cases v with
  | object keys field =>
      rw [unsigned, get, get]
      split <;> rfl
  | _ => rfl

@[simp] theorem isObject_unsigned (v : Value) : v.unsigned.isObject = v.isObject := by
  cases v <;> simp [unsigned, isObject]

/-- Comparisons see a merged object as they see the two that are merged. -/
theorem unsigned_mergeFields (target fields : Value) :
    (target.mergeFields fields).unsigned = target.unsigned.mergeFields fields.unsigned := by
  cases ht : target.isObject with
  | false => cases target <;> simp_all [mergeFields, unsigned, isObject]
  | true =>
      cases hf : fields.isObject with
      | false => cases target <;> cases fields <;> simp_all [mergeFields, unsigned, isObject]
      | true =>
          have hmerged : (target.mergeFields fields).isObject = true := by
            cases target <;> cases fields <;> simp_all [mergeFields, ofLookup, isObject]
          have hmerged' : (target.unsigned.mergeFields fields.unsigned).isObject = true := by
            cases target <;> cases fields <;> simp_all [mergeFields, unsigned, ofLookup, isObject]
          refine eq_of_get (by rwa [isObject_unsigned]) hmerged' fun k => ?_
          rw [get_unsigned, get_mergeFields ht hf, get_mergeFields (by rwa [isObject_unsigned])
            (by rwa [isObject_unsigned]), get_unsigned, get_unsigned]
          cases fields.get k <;> rfl

@[simp] theorem asStr_unsigned (v : Value) : v.unsigned.asStr = v.asStr := by
  cases v <;> rfl

@[simp] theorem asBool_unsigned (v : Value) : v.unsigned.asBool = v.asBool := by
  cases v <;> simp [unsigned, asBool]

@[simp] theorem getStr_unsigned (v : Value) (k : String) : v.unsigned.getStr k = v.getStr k := by
  rw [getStr, getStr, get_unsigned, Option.bind_map]
  exact congrArg _ (funext asStr_unsigned)

/-- Equal trees hold the same strings. -/
theorem getStr_of_alike (h : v.alike w = true) (k : String) : v.getStr k = w.getStr k := by
  rw [← getStr_unsigned v, ← getStr_unsigned w, alike_iff.mp h]

end Comparison

/-- The bytes a character takes inside a compact JSON string. -/
def charBytes (c : Char) : Nat :=
  if c = '"' ∨ c = '\\' ∨ c = '\n' ∨ c = '\r' ∨ c = '\t' ∨ c.toNat = 8 ∨ c.toNat = 12 then 2
  else if c.toNat < 32 then 6
  else c.utf8Size

/-- The length of a compact JSON string with its quotes. -/
def stringBytes (s : String) : Nat := 2 + (s.toList.map charBytes).sum

/-- The length of a printed number. -/
def Number.bytes : Number → Nat
  | .int z => (toString z).utf8ByteSize
  | .float text => text.utf8ByteSize

mutual

/-- The length of the compact JSON text of a tree. -/
def bytes : Value → Nat
  | null => 4
  | bool true => 4
  | bool false => 5
  | number n => Number.bytes n
  | string s => stringBytes s
  | array xs => 2 + (xs.length - 1) + listBytes xs
  | object keys field =>
      2 + (keys.card - 1) + ∑ k : {k // k ∈ keys}, (stringBytes k.1 + 1 + (field k).bytes)

/-- The total length of the compact JSON texts of several trees. -/
def listBytes : List Value → Nat
  | [] => 0
  | x :: xs => x.bytes + listBytes xs

end

@[simp] theorem listBytes_append (xs ys : List Value) :
    listBytes (xs ++ ys) = listBytes xs + listBytes ys := by
  induction xs with
  | nil => simp [listBytes]
  | cons x xs ih => simp [listBytes, ih, Nat.add_assoc]

@[simp] theorem listBytes_singleton (x : Value) : listBytes [x] = x.bytes := by
  simp [listBytes]

end Value

end Attyd.Json
