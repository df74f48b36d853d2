import Mender.Generator.KnownNames
import Mender.Generator.Model
import Mender.Generator.Rules
import Mender.Tuning

namespace Mender

namespace Tuning

/-- How the tuning has a model asked; `manual` explains the flaws of replies. -/
def modelSetup (t : Tuning) (manual : Text) : ModelSetup :=
  ⟨t.model, t.modelContextLines, .ofJson t.modelTimeout, .integer t.modelMaxRetries, manual⟩

end Tuning

/-- One of the standard generators, before it is put to work. -/
inductive StandardGenerator where
  | rules (template : Json)
  | knownNames (threshold limit : Json) (names : Option (List Text))
  | model (setup : ModelSetup)

namespace StandardGenerator

/-- The standard generators of a tuning, in order. `reachable` says that there is a way to a model. -/
def all (t : Tuning) (manual : Text) (names : Option (List Text)) (reachable : Bool) :
    List StandardGenerator :=
  [rules t.bindingTemplate, knownNames t.similarityThreshold t.maxNameSuggestions names]
    ++ if !t.usesModel.isBlank && reachable then [model (t.modelSetup manual)] else []

/-- The generator at work. Without a client a model suggests nothing. -/
def atWork {ω : Type} (client : Option (Client ω)) : StandardGenerator → Generator ω
  | rules template => ruleGenerator ω (.text template)
  | knownNames threshold limit names =>
    knownNamesGenerator ω (names.map fun ns => ⟨KnownNames.distinct ns, .amount threshold, .count limit⟩)
  | model setup =>
    match client with
    | some c => setup.generator c
    | none => ⟨Strategy.model.word, fun _ _ => pure (.offers [])⟩

end StandardGenerator

/-- The standard generators at work, with the model if there is a client for it. -/
def standardGenerators {ω : Type} (t : Tuning) (manual : Text) (names : Option (List Text))
    (client : Option (Client ω)) : List (Generator ω) :=
  (StandardGenerator.all t manual names client.isSome).map (StandardGenerator.atWork client)

end Mender
