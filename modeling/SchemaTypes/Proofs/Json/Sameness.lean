import SchemaTypes.Json.Value

/-! # When two values are the same

JSON does not tell a number from the same number in another notation, nor an object from one with
its fields in another order. Values are compared up to these.
-/

namespace SchemaTypes.Json

def Number.exact : Number → Rat
  | whole n => n
  | real x => (if x.negative then -1 else 1) * x.mantissa * 2 ^ x.exponent

namespace Value

/-- The same value, with numbers compared by what they are and objects field by field. -/
inductive Same : Value → Value → Prop
  | null : Same null null
  | bool (value : Bool) : Same (bool value) (bool value)
  | number {m n : Number} (exact : m.exact = n.exact) : Same (number m) (number n)
  | string (text : String) : Same (string text) (string text)
  | array {items others : List Value} (length : items.length = others.length)
      (each : ∀ (i : Nat) item other, items[i]? = some item → others[i]? = some other →
        Same item other) : Same (array items) (array others)
  | object {fields others : Fields}
      (names : ∀ name, (Fields.get? name fields).isSome = (Fields.get? name others).isSome)
      (each : ∀ name field other, Fields.get? name fields = some field →
        Fields.get? name others = some other → Same field other) :
      Same (object fields) (object others)

end Value

end SchemaTypes.Json
