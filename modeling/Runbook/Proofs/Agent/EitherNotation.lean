import Runbook.Proofs.Agent.Config
import Runbook.Proofs.Agent.Listing
import Runbook.Proofs.Agent.Renumbering

/-!
This module contains the two notations of a step: a header with its fields below, and a list item
with the id, the kind and the provider as its first fields. The same fields make up the same step in
both of them, with the same problems, whatever else there is wrong with the fields, and wherever the
header stands: in the section of steps, next to it, or without it.
-/

namespace Runbook

def Source.Token.isDirective : Source.Token → Bool
  | .directive .. => true
  | _ => false

namespace Agent

open Source

def headNames : List String :=
  ["id", "kind", "provider"]

section Head

variable {head fields : List Entry} (hhead : ∀ entry ∈ head, entry.1.key ∈ headNames)
include hhead

end Head

def Step.renumbered (f : Renumbering) (step : Step) : Step :=
  { step with line := f.number step.line }

section Read

variable {id kind : String} {provider : Option String} (hid : isKey id) (hkind : isKey kind)
  {fields : List Entry} (hfields : ∀ entry ∈ fields, entry.1.key ∉ headNames)
include hid hkind hfields

end Read

/-- Whether lines are fields with their keys in a column, without those that a header stands for. -/
structure AreFields (column : Nat) (lines : List Line) : Prop where
  first : ∀ line ∈ lines.head?, line.indent = column ∧ line.token.isItem = false
  within : ∀ line ∈ lines, column ≤ line.indent
  plain : ∀ line ∈ lines, line.token.isDirective = false
  names : ∀ entry ∈ (buildEntries column lines).value, entry.1.key ∉ headNames

theorem AreFields.renumbered {column : Nat} {lines : List Line} (h : AreFields column lines)
    (f : Renumbering)
    : AreFields column (lines.map (Line.renumbered f)) where
  first := by
    rw [List.head?_map]
    intro line hline
    obtain ⟨before, hbefore, rfl⟩ := Option.map_eq_some_iff.mp hline
    exact h.first before hbefore
  within := List.forall_mem_map.mpr h.within
  plain := List.forall_mem_map.mpr h.plain
  names := by
    rw [(buildEntries_renumbered column lines).value, renumberedEntries_eq_map, List.forall_mem_map]
    exact h.names

section Tree

variable {column : Nat} {lines : List Line}

variable (h : AreFields column lines)
include h

end Tree

section Section

variable {indent column : Nat} (hcolumn : indent < column) {lines : List Line}
  (h : AreFields column lines) {id kind : String} (hid : isKey id) (hkind : isKey kind)
  (provider : Option String) (number : Nat)
include hcolumn h hid hkind

end Section

/--
Where a header stands: below the key of the steps, as far to the right as one likes, or next to the
trigger in a text without that key.
-/
inductive HeaderPlace where
  | below (indent : Nat)
  | top

namespace HeaderPlace

def indent : HeaderPlace → Nat
  | below indent => indent
  | top => 0

def line : HeaderPlace → Nat
  | below _ => 4
  | top => 3

/-- An agent as it is written, from the text that begins with the header. -/
def sourceOf (place : HeaderPlace) (id version : String) (steps : List Char) : String :=
  match place with
  | below _ => Agent.sourceOf id version steps
  | top => topSourceOf id version steps

end HeaderPlace

section Text

variable {id kind : String} {provider : Option String} (hid : isKey id) (hkind : isKey kind)
  (hprovider : ∀ name ∈ provider, isKey name) (indent number : Nat) (fields : List Char)
include hid hkind hprovider

end Text

section Header

variable {id version : String} (hid : isArgument id) (hversion : isArgument version)
  {name kind : String} {provider : Option String} (hname : isKey name) (hkind : isKey kind)
  (hprovider : ∀ word ∈ provider, isKey word) {indent column : Nat} {fields : List Char}
include hid hversion hname hkind hprovider

end Header

section Either

variable {id version : String} (hid : isArgument id) (hversion : isArgument version)
  {name kind : String} {provider : Option String} (hname : isKey name) (hkind : isKey kind)
  (hprovider : ∀ word ∈ provider, isKey word) {place : HeaderPlace} {dash gap : Nat}
  (hdeeper : place.indent < dash + 1 + gap) (hgap : 0 < gap) {fields : List Char}
  (h : AreFields (dash + 1 + gap) (linesAt 4 fields).value)
include h

theorem AreFields.moved (count : Nat)
    : AreFields (dash + 1 + gap) (linesAt (4 + count) fields).value := by
  rw [(linesAt_insertion (by decide : 2 ≤ 4) (Nat.le_refl 4) count fields).value]
  exact h.renumbered _

include hid hversion hname hkind hprovider

end Either

end Agent

end Runbook
