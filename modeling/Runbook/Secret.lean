import Runbook.Agent.Definition

/-!
This module contains the sources of secrets: the environment, fixed values, and several sources one
after another.
-/

namespace Runbook

abbrev Environment := List (String × String)

/--
The value of a variable. Names and values are looked through as texts of the form `NAME=VALUE`, and
the value is what stands behind the name and an equals sign. So a name with an equals sign in it can
find a part of a value.
-/
def Environment.get? (env : Environment) (name : String) : Option String :=
  let start := (name ++ "=").toList
  env.findSome? fun (key, value) =>
    let text := (key ++ "=" ++ value).toList
    if start.isPrefixOf text then some (String.ofList (text.drop start.length)) else none

/-- Where secrets come from: the value of a declared secret, if it can be found. -/
abbrev SecretSource := Agent.SecretDecl → Option String

namespace SecretSource

/-- The name behind the scheme of an environment source. -/
def environmentName? (source : String) : Option String :=
  match source.toList with
  | 'e' :: 'n' :: 'v' :: ':' :: name => some (String.ofList (Text.trim name))
  | _ => none

/-- Looks up sources such as `env:NAME` in the environment. -/
def environment (env : Environment) : SecretSource := fun decl =>
  (environmentName? decl.source).bind env.get?

/-- Fixed values, under the name of a secret or else under its source. -/
def fixed (values : List (String × String)) : SecretSource := fun decl =>
  (values.lookup decl.name).or (values.lookup decl.source)

def chain (sources : List SecretSource) : SecretSource := fun decl =>
  sources.findSome? fun source => source decl

end SecretSource

end Runbook
