import Joinery.Query.Term

/-!
Contract: which values and expressions equal themselves.

Equality compares bound values as values, so a NaN differs from itself and so
does whatever holds one. `floats` lists the binary64 numbers of a value, those
inside JSON data included, and of a term at any depth. Without a NaN among
them a value equals itself, and so does the detached expression of a term.

Owns: the binary64 numbers of values and terms, and reflexivity.

Does not own: equality itself, and values that differ.
-/

namespace Joinery

/-! ## Numbers -/

theorem float_beq_self {x : Float} (ordinary : x.isNaN = false) : (x == x) = true := by
  show x.toModel.unpack.beq x.toModel.unpack = true
  have noNaN : x.toModel.unpack.isNaN = false := ordinary
  unfold Float.Model.UnpackedFloat.beq
  cases form : x.toModel.unpack with
  | notANumber =>
      rw [form] at noNaN
      cases noNaN
  | infinity sign => cases sign <;> rfl
  | zero sign => rfl
  | finite sign mantissa exponent positive =>
      have sameSize : (compare exponent exponent).then (compare mantissa mantissa) = .eq := by
        rw [Std.compare_self, Std.compare_self]
        rfl
      cases sign with
      | negative =>
          show (some ((compare exponent exponent).then (compare mantissa mantissa)).swap ==
            some Ordering.eq) = true
          rw [sameSize]
          rfl
      | positive =>
          show (some ((compare exponent exponent).then (compare mantissa mantissa)) ==
            some Ordering.eq) = true
          rw [sameSize]
          rfl

/-- No number of the list is a NaN. -/
def NoNaN (numbers : List Float) : Prop :=
  ∀ x ∈ numbers, x.isNaN = false

theorem noNaN_append {first second : List Float} :
    NoNaN (first ++ second) ↔ NoNaN first ∧ NoNaN second :=
  List.forall_mem_append

namespace Json

/-- The binary64 number of a quantity, if it is one. -/
def Quantity.floats : Quantity → List Float
  | .natural _ => []
  | .negative _ => []
  | .float value => [value]

theorem Quantity.same_self {quantity : Quantity} (ordinary : NoNaN quantity.floats) :
    quantity.same quantity = true := by
  cases quantity with
  | natural value => exact beq_self_eq_true value
  | negative value => exact beq_self_eq_true value
  | float value => exact float_beq_self (ordinary value (List.mem_singleton_self value))

namespace Content

mutual

/-- The binary64 numbers in JSON data. -/
def floats : Content → List Float
  | .null => []
  | .bool _ => []
  | .number quantity => quantity.floats
  | .text _ => []
  | .array items => itemFloats items
  | .object members => membersFloats members
termination_by structural x => x

def itemFloats : List Content → List Float
  | [] => []
  | item :: items => floats item ++ itemFloats items
termination_by structural x => x

def membersFloats : List (String × Content) → List Float
  | [] => []
  | member :: members => memberFloats member ++ membersFloats members
termination_by structural x => x

def memberFloats : String × Content → List Float
  | (_, value) => floats value
termination_by structural x => x

end

mutual

theorem same_self : (content : Content) → NoNaN content.floats → content.same content = true
  | .null, _ => rfl
  | .bool value, _ => beq_self_eq_true value
  | .number _, ordinary => Quantity.same_self ordinary
  | .text content, _ => beq_self_eq_true content
  | .array items, ordinary => sameItems_self items ordinary
  | .object members, ordinary => sameMembers_self members ordinary

theorem sameItems_self : (items : List Content) → NoNaN (itemFloats items) →
    sameItems items items = true
  | [], _ => rfl
  | item :: items, ordinary => by
      obtain ⟨first, others⟩ := noNaN_append.1 ordinary
      rw [sameItems, same_self item first, sameItems_self items others]
      rfl

theorem sameMembers_self : (members : List (String × Content)) → NoNaN (membersFloats members) →
    sameMembers members members = true
  | [], _ => rfl
  | member :: members, ordinary => by
      obtain ⟨first, others⟩ := noNaN_append.1 ordinary
      rw [sameMembers, sameMember_self member first, sameMembers_self members others]
      rfl

theorem sameMember_self : (member : String × Content) → NoNaN (memberFloats member) →
    sameMember member member = true
  | (name, value), ordinary => by
      rw [sameMember, same_self value ordinary, beq_self_eq_true]
      rfl

end

end Content

end Json

/-! ## Values -/

namespace Value

/-- The binary64 numbers in a value. -/
def floats : Value → List Float
  | .float value => [value]
  | .json content => content.floats
  | _ => []

theorem same_self {value : Value} (ordinary : NoNaN value.floats) :
    value.same value = true := by
  cases value with
  | int value => exact beq_self_eq_true value
  | uint value => exact beq_self_eq_true value
  | float value => exact float_beq_self (ordinary value (List.mem_singleton_self value))
  | string value => exact beq_self_eq_true value
  | bool value => exact beq_self_eq_true value
  | json content => exact content.same_self ordinary
  | uuid value => exact beq_self_eq_true value
  | date value => exact beq_self_eq_true value
  | timestamp value => exact beq_self_eq_true value
  | null => rfl

end Value

/-! ## Terms -/

namespace Query.Term

open Sql (Expr)

mutual

/-- The binary64 numbers among the values that a term is written with, those
in the arguments of star calls included. -/
def floats : Term → List Float
  | .value bound => bound.floats
  | .sql _ => []
  | .column _ => []
  | .relation _ => []
  | .binary _ left right => floats left ++ floats right
  | .isNull operand _ => floats operand
  | .inList operand items _ => floats operand ++ floatsList items
  | .call _ args _ => floatsList args
  | .aliased operand _ => floats operand
termination_by structural x => x

def floatsList : List Term → List Float
  | [] => []
  | term :: others => floats term ++ floatsList others
termination_by structural x => x

end

mutual

/-- The detached expression of a term without a NaN equals itself. -/
theorem same_detached_self : (term : Term) → NoNaN term.floats →
    Expr.same term.detached term.detached = true
  | .value _, ordinary => Value.same_self ordinary
  | .sql fragment, _ => beq_self_eq_true fragment
  | .column reference, _ => beq_self_eq_true reference.ident
  | .relation context, _ => beq_self_eq_true (some context.relation.qualifier)
  | .binary op left right, ordinary => by
      obtain ⟨atLeft, atRight⟩ := noNaN_append.1 ordinary
      rw [detached, Expr.same, same_detached_self left atLeft, same_detached_self right atRight,
        beq_self_eq_true]
      rfl
  | .isNull operand negated, ordinary => by
      rw [detached, Expr.same, same_detached_self operand ordinary, beq_self_eq_true]
      rfl
  | .inList operand items negated, ordinary => by
      obtain ⟨atOperand, atItems⟩ := noNaN_append.1 ordinary
      rw [detached, Expr.same, same_detached_self operand atOperand,
        sameList_detachedList_self items atItems, beq_self_eq_true]
      rfl
  | .call name args star, ordinary => by
      rw [detached, Expr.same, sameList_detachedList_self args ordinary, beq_self_eq_true,
        beq_self_eq_true]
      rfl
  | .aliased operand aliasName, ordinary => by
      rw [detached, Expr.same, same_detached_self operand ordinary, beq_self_eq_true]
      rfl

theorem sameList_detachedList_self : (terms : List Term) → NoNaN (floatsList terms) →
    Expr.sameList (detachedList terms) (detachedList terms) = true
  | [], _ => rfl
  | term :: others, ordinary => by
      obtain ⟨first, rest⟩ := noNaN_append.1 ordinary
      rw [detachedList, Expr.sameList, same_detached_self term first,
        sameList_detachedList_self others rest]
      rfl

end

/-- Half of a number equals itself, a NaN does not. -/
example : Expr.same (.value (.float 0.5)) (.value (.float 0.5)) = true ∧
    Expr.same (.value (.float (0.0 / 0.0))) (.value (.float (0.0 / 0.0))) = false := by
  decide

end Query.Term

end Joinery
