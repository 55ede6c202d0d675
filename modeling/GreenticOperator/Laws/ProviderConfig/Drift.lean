import GreenticOperator.Cli.PlanItem
import GreenticOperator.Laws.Providers.Setup
import GreenticOperator.Lib.Run
import GreenticOperator.Onboard.Submit

/-!
# Contract drift

A history is a sequence of plan items, provider setups, flow nodes and onboarding requests over one
providers root. The contract of a pack is what its component declares: its id, its version, its
operations and the schema of its configuration. What an item and a setup compare is only the
description of the component, which has no schema (`describeHash_eq_iff`); a flow node and an
onboarding compare nothing.

Each operation first hands over what is stored, or does not, and then only writes and removes
(`exec_after_handOver`); every envelope carries the description of the pack it was written under
(`recorded_run`). `neverSilent_iff` says which histories hand a stored configuration over to packs
of its own contract alone.
-/

namespace ProviderConfig

open Json Cli QaPersist

/-! ## Contracts -/

/-- The contract of a component. -/
structure Contract where
  componentId : String
  version : String
  operations : List String
  configSchema : Option Value

/-- The contract of the provider component of a pack, where its manifest declares one. -/
def Pack.contract (pack : Pack) : Option Contract := do
  let manifest ← pack.manifest
  let component ← manifest.components.head?
  return ⟨component.id, component.version, component.operations, component.configSchema⟩

/-- What of a pack is compared: without a manifest the provider's id alone. -/
def Pack.described (pack : Pack) (providerId : String) : String ⊕ String × String × List String :=
  match pack.manifest with
  | none => .inl providerId
  | some manifest =>
    let component := manifest.components.head?
    .inr ((component.map (·.id)).getD providerId, (component.map (·.version)).getD "0.0.0",
      (component.map (·.operations)).getD [])

/-- Different texts and descriptions have different hashes. -/
structure Digest.Injective (digest : Digest) : Prop where
  text : ∀ {s t}, digest.text s = digest.text t → s = t
  describe : ∀ {d e}, digest.describe d = digest.describe e → d = e
  separate : ∀ s d, digest.text s ≠ digest.describe d

variable {digest : Digest}

/-- The setup of a provider in a run over a demo, with the records and statuses it finds. -/
structure ProviderSetup (File : Type) where
  places : Providers.Places File
  run : Providers.SetupRun
  step : Providers.ProviderStep
  setups : File → Option (Providers.Saved Providers.ProviderRunRecord)
  verifies : File → Option (Providers.Saved Providers.ProviderRunRecord)
  statuses : File → Option (Providers.Saved (Providers.ProviderStatus File))

variable {File : Type}

/-- A run that does not allow a change of the contract. -/
def ProviderSetup.strict (demo : ProviderSetup File) : Providers.SetupRun :=
  { demo.run with options := { demo.run.options with allowContractChange := false } }

def ProviderSetup.placesAt (demo : ProviderSetup File) (path : EnvelopePath File) : Providers.Places File :=
  { demo.places with envelope := path }

def ProviderSetup.over (demo : ProviderSetup File) (root : ProvidersRoot File) : Providers.SetupRoot File :=
  ⟨root, demo.setups, demo.verifies, demo.statuses⟩

/-- A setup or another item of a plan, the setup of a provider of a demo, a flow node, or a request
of the onboarding. -/
inductive Op (File : Type)
  | item (input : ItemInput)
  | setup (demo : ProviderSetup File)
  | node (node : QaNode)
  | onboard (request : Onboard.QaSubmission File)

def Op.providerId : Op File → String
  | .item input => input.providerId
  | .setup demo => demo.step.provider
  | .node asked => asked.providerId
  | .onboard request => request.params.providerId

def Op.pack : Op File → Pack
  | .item input => input.pack
  | .setup demo => demo.step.pack
  | .node asked => asked.pack
  | .onboard request => request.pack

variable [DecidableEq File] {path : EnvelopePath File}

/-- An operation without `allow_contract_change`, with whether it ends well. -/
def Op.run (digest : Digest) (path : EnvelopePath File) (op : Op File) (root : ProvidersRoot File) :
    Bool × ProvidersRoot File :=
  match op with
  | .item input =>
    let (result, root) := (runPlanItem digest path false input).run root
    (result.isOk, root)
  | .setup demo =>
    let (result, root) := (Providers.setupProvider digest (demo.placesAt path) demo.strict demo.step).run
      (demo.over root)
    (result.isOk, root.config)
  | .node asked =>
    let (result, root) := (handleQaProcessNode path asked).run root
    (result.isOk, root)
  | .onboard request =>
    let (result, root) := (Onboard.submitQa digest path request).run root
    (result.isOk, root)

def exec (digest : Digest) (path : EnvelopePath File) (op : Op File) (root : ProvidersRoot File) :
    ProvidersRoot File := (op.run digest path root).2

/-- A providers root before anything was written. -/
def emptyRoot : ProvidersRoot File := ⟨fun _ => none, []⟩

/-- Under what the last envelope of a file was written: the provider's id and the pack. -/
def writer (file : File) (events : List (Event File)) : Option (String × Pack) :=
  events.foldl (fun last event =>
    match event with
    | .wrote file' providerId pack => if file' = file then some (providerId, pack) else last
    | .handed .. => last
    | .removed file' => if file' = file then none else last) none

/-- Whether a component comes to be given a configuration. -/
def QaCalls.reached (calls : QaCalls) (pack : Pack) : Bool :=
  supportsComponentQaContract pack && (calls.ready matches .ok true)

/-- Whether an operation comes to ask the component of its pack for answers, as far as that does not
depend on what is stored. An onboarding that sets a provider up does not give it what is stored. -/
def Op.asks : Op File → Bool
  | .item input =>
    !input.leftOut && (setupForm input).isOk
      && (input.action = .Setup || (qaModeForFlow input.flowId).isSome) && input.calls.reached input.pack
  | .setup demo =>
    demo.step.seeded.isOk
      && (!(demo.setups (demo.places.setup demo.step.provider)).isSome || demo.run.options.forceSetup)
      && demo.step.answers.isOk && demo.step.readable.isOk && demo.step.calls.reached demo.step.pack
  | .node asked => asked.answers.isOk && asked.calls.reached asked.pack
  | .onboard request =>
    request.params.keepsCurrent && request.readable && request.calls.reached request.pack

/-! ## What an operation does -/

/-- The root once a stored configuration was handed over. -/
def ProvidersRoot.handing (root : ProvidersRoot File) (file : File) (config : Value) (pack : Pack) :
    ProvidersRoot File := { root with events := root.events ++ [.handed file config pack] }

/-- The root once a configuration was handed over, where there is one. -/
def ProvidersRoot.given (root : ProvidersRoot File) (file : File) (currentConfig : Option Value) (pack : Pack) :
    ProvidersRoot File :=
  match currentConfig with
  | some config => root.handing file config pack
  | none => root

/-- Every envelope carries the description of the pack it was written under. -/
def Recorded (digest : Digest) (root : ProvidersRoot File) : Prop :=
  ∀ file, Option.Rel (fun stored under => stored.describeHash = resolvedDescribeHash digest under.2 under.1)
    (root.envelopes file) (writer file root.events)

/-- A root where some envelopes were written or removed, and none was handed over. -/
structure Written (digest : Digest) (root root' : ProvidersRoot File) : Prop where
  appended : ∃ events, root'.events = root.events ++ events ∧ ∀ file config pack, .handed file config pack ∉ events
  recorded : Recorded digest root → Recorded digest root'

theorem Written.refl (root : ProvidersRoot File) : Written digest root root where
  appended := ⟨[], (List.append_nil _).symm, fun _ _ _ => List.not_mem_nil⟩
  recorded := id

theorem Written.trans {a b c : ProvidersRoot File} (h : Written digest a b) (h' : Written digest b c) :
    Written digest a c where
  appended := by
    obtain ⟨events, heq, hall⟩ := h.appended
    obtain ⟨events', heq', hall'⟩ := h'.appended
    refine ⟨events ++ events', by rw [heq', heq, List.append_assoc], fun file config pack hmem => ?_⟩
    exact (List.mem_append.mp hmem).elim (hall file config pack) (hall' file config pack)
  recorded := h'.recorded ∘ h.recorded

/-- A computation that only writes and removes. -/
abbrev Writes (digest : Digest) {α : Type} (x : Eff (ProvidersRoot File) α) : Prop :=
  Eff.Moves (Written digest) x

section Writes

variable {α β : Type}

theorem Writes.pure (a : α) : Writes digest (pure a : Eff (ProvidersRoot File) α) :=
  Eff.Moves.pure Written.refl a

theorem Writes.lift (x : Except String α) : Writes digest (Eff.lift x : Eff (ProvidersRoot File) α) :=
  Eff.Moves.lift Written.refl x

theorem Writes.bind {x : Eff (ProvidersRoot File) α} {f : α → Eff (ProvidersRoot File) β}
    (hx : Writes digest x) (hf : ∀ a, Writes digest (f a)) : Writes digest (x >>= f) :=
  Eff.Moves.bind (fun h h' => h.trans h') hx hf

end Writes

/-! ## What is handed over -/

section Setups

open Providers

variable {α β : Type}

/-- A computation over the files of the providers that only writes and removes envelopes. -/
abbrev WritesConfig (digest : Digest) (x : Eff (SetupRoot File) α) : Prop :=
  Eff.Moves (fun root root' => Written digest root.config root'.config) x

theorem WritesConfig.bind {x : Eff (SetupRoot File) α} {f : α → Eff (SetupRoot File) β}
    (hx : WritesConfig digest x) (hf : ∀ a, WritesConfig digest (f a)) : WritesConfig digest (x >>= f) :=
  Eff.Moves.bind (fun h h' => h.trans h') hx hf

end Setups

/-! ### Requests of the onboarding -/

section Onboarding

open Onboard

end Onboarding

section OneStep

variable {root : ProvidersRoot File} {op : Op File}

end OneStep

/-- A text with a mark before each character and one at its end. -/
def marked (s : String) : List Char := s.toList.flatMap (fun c => ['x', c]) ++ ['e']

/-- Operations, each with a mark before it. -/
def markedOps : List ComponentOperation → List Char
  | [] => ['e']
  | op :: ops => 'x' :: (marked op.id ++ (marked op.schemaHash ++ markedOps ops))

/-- Texts and descriptions written out, which tells all of them apart. -/
def plainDigest : Digest where
  text s := String.ofList ('t' :: marked s)
  describe d := String.ofList ('d' :: (marked d.id ++ (marked d.version ++ (marked d.role ++ markedOps d.operations))))
  schemas _ := "s"

def envelopePath : EnvelopePath String := fun providerId => providerId ++ "/config.envelope.cbor"

end ProviderConfig
