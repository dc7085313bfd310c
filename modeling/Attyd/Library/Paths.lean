import Attyd.Library.Json
import Mathlib.Data.List.Infix

/-!
# Paths into JSON trees

A path leads from a tree to one of its parts, by the keys of objects and the positions of
arrays. A tree is known when the outline of the part at every path is.
-/

namespace Attyd.Json

inductive Step where
  | key (name : String)
  | index (position : Nat)
  deriving DecidableEq

abbrev Path := List Step

/-- A tree without its children: a leaf, or how many children it has and under what keys. -/
inductive Outline where
  | null
  | bool (value : Bool)
  | number (value : Number)
  | string (value : String)
  | array (length : Nat)
  | object (keys : Finset String)
  deriving DecidableEq

namespace Value

def child : Value → Step → Option Value
  | object keys field, .key name => (object keys field).get name
  | array items, .index position => items[position]?
  | _, _ => none

/-- The part of a tree at the end of a path. -/
def descend : Value → Path → Option Value
  | v, [] => some v
  | v, step :: path => (v.child step).bind fun part => part.descend path

def outline : Value → Outline
  | null => .null
  | bool value => .bool value
  | number value => .number value
  | string value => .string value
  | array items => .array items.length
  | object keys _ => .object keys

/-- The outline of the part at a path. -/
def outlineAt (v : Value) (path : Path) : Option Outline := (v.descend path).map outline

@[simp] theorem descend_nil (v : Value) : v.descend [] = some v := by
  cases v <;> rfl

@[simp] theorem descend_cons (v : Value) (step : Step) (path : Path) :
    v.descend (step :: path) = (v.child step).bind fun part => part.descend path := by
  cases v <;> rfl

/-- A path leads where its parts lead one after the other. -/
theorem descend_append (v : Value) (p q : Path) :
    v.descend (p ++ q) = (v.descend p).bind fun part => part.descend q := by
  induction p generalizing v with
  | nil => simp
  | cons step p ih =>
      simp only [List.cons_append, descend_cons, Option.bind_assoc]
      congr 1
      funext part
      exact ih part

@[simp] theorem outlineAt_nil (v : Value) : v.outlineAt [] = some v.outline := by
  simp [outlineAt]

theorem outlineAt_cons (v : Value) (step : Step) (path : Path) :
    v.outlineAt (step :: path) = (v.child step).bind fun part => part.outlineAt path := by
  simp [outlineAt, Option.map_bind]

theorem outlineAt_append (v : Value) (p q : Path) :
    v.outlineAt (p ++ q) = (v.descend p).bind fun part => part.outlineAt q := by
  simp [outlineAt, descend_append, Option.map_bind]

theorem child_key (v : Value) (name : String) : v.child (.key name) = v.get name := by
  cases v <;> rfl

theorem child_index_of_get {v x : Value} {name : String} (h : v.get name = some x)
    (position : Nat) : v.child (.index position) = none := by
  cases v with
  | object => rfl
  | _ => cases h

theorem outline_set {v x : Value} {name : String} (h : v.get name = some x) (y : Value) :
    (v.set name y).outline = v.outline := by
  cases v with
  | object keys field =>
      have hmem : name ∈ keys := mem_keys_of_get h
      simp only [set, outline, Finset.insert_eq_of_mem hmem]
  | _ => cases h

/-- Two children with one outline at every path. -/
theorem outlineAt_child {v w x : Value} (step : Step) (h : ∀ p, v.outlineAt p = w.outlineAt p)
    (hv : v.child step = some x) :
    ∃ y, w.child step = some y ∧ ∀ p, x.outlineAt p = y.outlineAt p := by
  have hstep := fun p => h (step :: p)
  simp only [outlineAt_cons, hv, Option.bind_some] at hstep
  cases hw : w.child step with
  | none =>
      have hnil := hstep []
      rw [hw, outlineAt_nil] at hnil
      cases hnil
  | some y => exact ⟨y, rfl, fun p => by simpa [hw] using hstep p⟩

mutual

/-- A tree is known by the outline at every path. -/
theorem eq_of_outlineAt : (v w : Value) → (∀ p, v.outlineAt p = w.outlineAt p) → v = w
  | v, w, h => by
      have hroot : v.outline = w.outline := by simpa using h []
      cases v with
      | null => cases w <;> first | rfl | cases hroot
      | bool a =>
          cases w <;> cases hroot
          rfl
      | number a =>
          cases w <;> cases hroot
          rfl
      | string a =>
          cases w <;> cases hroot
          rfl
      | array xs =>
          cases w with
          | array ys =>
              refine congrArg array (eq_of_outlineAt_list xs ys (Outline.array.inj hroot)
                fun position x hx => ?_)
              exact outlineAt_child (.index position) h hx
          | _ => cases hroot
      | object keys field =>
          cases w with
          | object keys' field' =>
              obtain rfl : keys = keys' := Outline.object.inj hroot
              congr 1
              funext k
              obtain ⟨y, hy, hp⟩ := outlineAt_child (x := field k) (.key k.1) h (dif_pos k.2)
              rw [eq_of_outlineAt (field k) y hp]
              exact (Option.some.inj ((dif_pos k.2).symm.trans hy)).symm
          | _ => cases hroot

theorem eq_of_outlineAt_list : (xs ys : List Value) → xs.length = ys.length →
    (∀ (position : Nat) (x : Value), xs[position]? = some x →
      ∃ y : Value, ys[position]? = some y ∧ ∀ p, x.outlineAt p = y.outlineAt p) → xs = ys
  | [], ys, hlen, _ => (List.eq_nil_of_length_eq_zero hlen.symm).symm
  | x :: xs, ys, hlen, h => by
      cases ys with
      | nil => cases hlen
      | cons y ys =>
          obtain ⟨y', hy, hp⟩ := h 0 x rfl
          cases hy
          rw [eq_of_outlineAt x y hp]
          refine congrArg (y :: ·) (eq_of_outlineAt_list xs ys (Nat.succ.inj hlen)
            fun position x' hx' => ?_)
          exact h (position + 1) x' hx'

end

end Value

end Attyd.Json
