import Runbook.Masking
import Runbook.Template

/-!
This module contains the values that names are bound to in a run. Some names hold secrets; every
view that leaves the run hides their values wherever they occur, one after another in an order that
is the table's own.
-/

namespace Runbook

/--
The order in which a table goes through the names of its secrets. It is left to chance: tables with
the same names may go through them in different orders.
-/
structure SecretOrder where
  arrange : List String → List String
  perm : ∀ names, (arrange names).Perm names

namespace SecretOrder

/-- The order in which the names were bound. -/
def bound : SecretOrder :=
  ⟨id, List.Perm.refl⟩

end SecretOrder

/-- Names and their values, in the order in which the names were first bound. -/
structure Bindings where
  values : Json.Fields := []
  /-- The names that were bound as secrets, without repetition. -/
  secretNames : List String := []
  order : SecretOrder := .bound

namespace Bindings

/-- The same bindings in a table that has another order. -/
def inOrder (b : Bindings) (order : SecretOrder) : Bindings :=
  { b with order }

/-- Binds a name; the last value counts. A name that holds a secret goes on to hold one. -/
def set (b : Bindings) (name : String) (value : Json) : Bindings :=
  { b with values := b.values.insert name value }

def setSecret (b : Bindings) (name value : String) : Bindings :=
  { b with
    values := b.values.insert name (.str value)
    secretNames := if name ∈ b.secretNames then b.secretNames else b.secretNames ++ [name] }

def get? (b : Bindings) (name : String) : Option Json :=
  b.values.get? name

/-- The value of a dotted path, by the rules of placeholders. -/
def getPath? (b : Bindings) (path : String) : Option Json :=
  Template.lookup b.values path

@[simp]
theorem get?_set (b : Bindings) (name other : String) (value : Json)
    : (b.set name value).get? other = if name = other then some value else b.get? other :=
  Json.Fields.get?_insert name other value b.values

@[simp]
theorem get?_setSecret (b : Bindings) (name value other : String)
    : (b.setSecret name value).get? other
        =
      if name = other then some (.str value) else b.get? other :=
  Json.Fields.get?_insert name other (.str value) b.values

def isSecret (b : Bindings) (name : String) : Bool :=
  b.secretNames.contains name

def size (b : Bindings) : Nat :=
  b.values.length

/-- The values to hide, in the order in which they are hidden. -/
def secretValues (b : Bindings) : List String :=
  (b.order.arrange b.secretNames).filterMap fun name =>
    (b.get? name).map fun value => String.ofList (Template.valueText value)

/-- The bindings with secrets hidden, the values to hide being taken in the given order. -/
def maskedBy (b : Bindings) (secrets : List String) : Json.Fields :=
  b.values.map fun (name, value) =>
    (name, if b.isSecret name then .str redacted else Masking.maskJson secrets value)

def masked (b : Bindings) : Json.Fields :=
  b.maskedBy b.secretValues

def maskText (b : Bindings) (text : String) : String :=
  Masking.mask b.secretValues text

end Bindings

end Runbook
