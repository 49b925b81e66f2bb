/-
**JSON documents up to the order of their members.**

An array is a finite sequence and an object a value for each of a finite set of keys, so a document
here is what a reader that keeps the last of several equal keys decodes. Numbers keep their
spelling; `sameBy` compares two documents with a comparison of number spellings of the caller's.

* `sameBy_refl`, `sameBy_trans` — it is reflexive and transitive where that comparison is;
* `sameBy_mapNumbers` — respelling the numbers of one side keeps documents the same for a comparison
  that allows the respelling.
-/

import Mathlib.Data.Finset.Card
import Mathlib.Tactic.Common

namespace PgSprite.Lib

/-- A JSON document. -/
inductive Json where
  | null
  | bool (value : Bool)
  | number (literal : String)
  | string (text : String)
  | array (length : ℕ) (item : ℕ → Json)
  | object (keys : Finset String) (value : String → Json)

namespace Json

/-- Whether the document is an object. -/
def isObject : Json → Bool
  | object _ _ => true
  | _ => false

/-- Whether a string of the document, a key included, has the property. -/
def anyString (p : String → Bool) : Json → Bool
  | string text => p text
  | array length item => (List.range length).any fun i => anyString p (item i)
  | object keys value => decide (∃ key ∈ keys, p key = true ∨ anyString p (value key) = true)
  | _ => false

/-- The document with every number respelled. -/
def mapNumbers (spell : String → String) : Json → Json
  | null => null
  | bool value => bool value
  | number literal => number (spell literal)
  | string text => string text
  | array length item => array length fun i => mapNumbers spell (item i)
  | object keys value => object keys fun key => mapNumbers spell (value key)

/-- Compares two documents, and their numbers by `eq`: arrays item by item, objects by finding every
key of one in the other. -/
@[simp]
def sameBy (eq : String → String → Bool) : Json → Json → Bool
  | null, null => true
  | bool a, bool b => a == b
  | number a, number b => eq a b
  | string a, string b => a == b
  | array n f, array m g => n == m && (List.range n).all fun i => sameBy eq (f i) (g i)
  | object ks f, object ls g =>
    ks.card == ls.card && decide (∀ key ∈ ks, key ∈ ls ∧ sameBy eq (f key) (g key) = true)
  | _, _ => false

variable {eq other : String → String → Bool}

@[simp]
theorem sameBy_array {n m : ℕ} {f g : ℕ → Json} :
    sameBy eq (array n f) (array m g) = true ↔
      n = m ∧ ∀ i < n, sameBy eq (f i) (g i) = true := by
  simp [sameBy]

/-- Objects are the same when they have the same keys with the same values. -/
@[simp]
theorem sameBy_object {ks ls : Finset String} {f g : String → Json} :
    sameBy eq (object ks f) (object ls g) = true ↔
      ks = ls ∧ ∀ key ∈ ks, sameBy eq (f key) (g key) = true := by
  rw [sameBy, Bool.and_eq_true, beq_iff_eq, decide_eq_true_eq]
  constructor
  · rintro ⟨size, found⟩
    exact ⟨Finset.eq_of_subset_of_card_le (fun key member => (found key member).1) size.ge,
      fun key member => (found key member).2⟩
  · rintro ⟨rfl, same⟩
    exact ⟨rfl, fun key member => ⟨member, same key member⟩⟩

theorem sameBy_refl (refl : ∀ a, eq a a = true) (doc : Json) : sameBy eq doc doc = true := by
  induction doc with
  | null => rfl
  | bool value => simp [sameBy]
  | number literal => exact refl literal
  | string text => simp [sameBy]
  | array length item ih => exact sameBy_array.mpr ⟨rfl, fun i _ => ih i⟩
  | object keys value ih => exact sameBy_object.mpr ⟨rfl, fun key _ => ih key⟩

/-- Sameness of documents is transitive where that of the scalars is. -/
theorem sameBy_trans (trans : ∀ a b c, eq a b = true → eq b c = true → eq a c = true)
    {a b c : Json} (first : sameBy eq a b = true) (second : sameBy eq b c = true) :
    sameBy eq a c = true := by
  induction a generalizing b c with
  | null => cases b <;> simp_all [sameBy]
  | bool value => cases b <;> simp_all [sameBy]
  | number literal =>
    cases b with
    | number middle =>
      cases c with
      | number last => exact trans _ _ _ first second
      | _ => cases second
    | _ => cases first
  | string text => cases b <;> simp_all [sameBy]
  | array length item ih =>
    cases b with
    | array m g =>
      cases c with
      | array l h =>
        obtain ⟨rfl, items⟩ := sameBy_array.mp first
        obtain ⟨rfl, others⟩ := sameBy_array.mp second
        exact sameBy_array.mpr ⟨rfl, fun i below => ih i (items i below) (others i below)⟩
      | _ => cases second
    | _ => cases first
  | object keys value ih =>
    cases b with
    | object ls g =>
      cases c with
      | object ms h =>
        obtain ⟨rfl, values⟩ := sameBy_object.mp first
        obtain ⟨rfl, others⟩ := sameBy_object.mp second
        exact sameBy_object.mpr
          ⟨rfl, fun key member => ih key (values key member) (others key member)⟩
      | _ => cases second
    | _ => cases first

/-- Documents whose numbers agree for one comparison agree for another that allows the respelling of
the second document's numbers. -/
theorem sameBy_mapNumbers {spell : String → String}
    (allows : ∀ a b, eq a b = true → other a (spell b) = true) {a b : Json}
    (same : sameBy eq a b = true) : sameBy other a (b.mapNumbers spell) = true := by
  induction a generalizing b with
  | null => cases b <;> simp_all [sameBy, mapNumbers]
  | bool value => cases b <;> simp_all [sameBy, mapNumbers]
  | number literal =>
    cases b with
    | number spelling => exact allows _ _ same
    | _ => cases same
  | string text => cases b <;> simp_all [sameBy, mapNumbers]
  | array length item ih =>
    cases b with
    | array m g =>
      obtain ⟨rfl, items⟩ := sameBy_array.mp same
      exact sameBy_array.mpr ⟨rfl, fun i below => ih i (items i below)⟩
    | _ => cases same
  | object keys value ih =>
    cases b with
    | object ls g =>
      obtain ⟨rfl, values⟩ := sameBy_object.mp same
      exact sameBy_object.mpr ⟨rfl, fun key member => ih key (values key member)⟩
    | _ => cases same

end Json

end PgSprite.Lib
