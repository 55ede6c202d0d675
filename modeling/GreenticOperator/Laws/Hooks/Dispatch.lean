import GreenticOperator.Hooks.Dispatch
import GreenticOperator.Lib.Outcome

/-!
# Dispatching within the bundle

A target that is run was safe in all that it names. The pack that is run for it is named like it, and
lies below the packs directory of the bundle, unless the working directory of the process has an entry of
that name (`dispatch_within`). What a target leaves out, its team and its flow, is filled in from the
context and from the manifest of the pack, and not looked at again. A target may be an object, or a text
of its parts with separators between them; both are read alike where no part is left out before another.
-/

namespace Hooks

open Disk Domains HttpIngress Ingress Json

/-! ## What was safe -/

theorem ensureSegment_eq_ok_iff {what value : String} :
    ensureSegment what value = .ok () ↔ isSafeSegment value = true := by
  unfold ensureSegment
  split <;> simp_all

theorem forM_eq_ok_iff {what : String} {value : Option String} :
    value.forM (ensureSegment what) = .ok () ↔ ∀ text, value = some text → isSafeSegment text = true := by
  cases value with
  | none => exact ⟨fun _ => nofun, fun _ => rfl⟩
  | some text =>
    refine ensureSegment_eq_ok_iff.trans ⟨?_, fun h => h text rfl⟩
    rintro h _ ⟨⟩
    exact h

/-- The texts of a target that are checked. -/
structure SafeTarget (target : DispatchTarget) : Prop where
  tenant : isSafeSegment target.tenant = true
  team : ∀ team, target.team = some team → isSafeSegment team = true
  pack : isSafeSegment target.pack = true
  flow : ∀ flow, target.flow = some flow → isSafeSegment flow = true
  node : ∀ node, target.node = some node → isSafeSegment node = true

theorem ensureDispatchTargetSafe_eq_ok_iff {target : DispatchTarget} :
    ensureDispatchTargetSafe target = .ok () ↔ SafeTarget target := by
  unfold ensureDispatchTargetSafe
  constructor
  · intro h
    obtain ⟨_, htenant, h⟩ := Outcome.bind_eq_ok_iff.mp h
    obtain ⟨_, hteam, h⟩ := Outcome.bind_eq_ok_iff.mp h
    obtain ⟨_, hpack, h⟩ := Outcome.bind_eq_ok_iff.mp h
    obtain ⟨_, hflow, hnode⟩ := Outcome.bind_eq_ok_iff.mp h
    exact ⟨ensureSegment_eq_ok_iff.mp htenant, forM_eq_ok_iff.mp hteam, ensureSegment_eq_ok_iff.mp hpack,
      forM_eq_ok_iff.mp hflow, forM_eq_ok_iff.mp hnode⟩
  · rintro ⟨htenant, hteam, hpack, hflow, hnode⟩
    rw [ensureSegment_eq_ok_iff.mpr htenant, forM_eq_ok_iff.mpr hteam, ensureSegment_eq_ok_iff.mpr hpack,
      forM_eq_ok_iff.mpr hflow, forM_eq_ok_iff.mpr hnode]
    rfl

theorem plain_of_safe {name : String} (h : isSafeSegment name = true) : Plain name := by
  unfold isSafeSegment at h
  split at h
  · cases h
  next hname =>
    simp only [Bool.or_eq_true, beq_iff_eq, not_or] at hname
    obtain ⟨⟨hempty, hdot⟩, hdots⟩ := hname
    refine ⟨hempty, hdot, hdots, fun hslash => ?_⟩
    simp [hslash] at h

/-! ## What is run -/

namespace Site

variable {site : Site} {codec : Codec} {body : HookIngressBody} {target : DispatchTarget} {request : RunRequest}

/-- What a target that is run was run as. -/
theorem dispatchRequest_eq_ok (h : site.dispatchRequest codec body target = .ok request) :
    SafeTarget target ∧ ∃ packMeta, site.resolveDispatchPackPath target.pack = .ok request.packPath
      ∧ site.readPackMeta request.packPath = .ok packMeta
      ∧ target.flow.or packMeta.entryFlows.head? = some request.flowId
      ∧ request.tenant = target.tenant ∧ request.team = target.team.or site.ctx.team
      ∧ request.input = dispatchInput codec body target := by
  obtain ⟨_, hsafe, h⟩ := Outcome.bind_eq_ok_iff.mp h
  obtain ⟨packPath, hpath, h⟩ := Outcome.bind_eq_ok_iff.mp h
  obtain ⟨packMeta, hmeta, h⟩ := Outcome.bind_eq_ok_iff.mp h
  obtain ⟨flowId, hflow, h⟩ := Outcome.bind_eq_ok_iff.mp h
  cases h
  refine ⟨ensureDispatchTargetSafe_eq_ok_iff.mp hsafe, packMeta, hpath, hmeta, ?_, rfl, rfl, rfl⟩
  unfold flowIdOf at hflow
  split at hflow
  next flow hfound => rw [hfound, Except.ok.inj hflow]
  next => cases hflow

/-- A pack that can be read is there. -/
theorem pathExists_of_readPackMeta {path : String} {packMeta : PackMeta}
    (h : site.readPackMeta path = .ok packMeta) : site.pathExists path = true := by
  unfold readPackMeta at h
  obtain ⟨manifest, hmanifest, -⟩ := Outcome.bind_eq_ok_iff.mp h
  unfold readManifestAt at hmanifest
  unfold pathExists
  split at hmanifest
  next hdir =>
    unfold isDir at hdir
    rw [Bool.and_eq_true] at hdir
    rw [hdir.1, hdir.2]
    rfl
  next =>
    obtain ⟨file, hfile, -⟩ := Outcome.bind_eq_ok_iff.mp hmanifest
    unfold openFile at hfile
    split at hfile
    next hreaches hread =>
      rw [hreaches, hread]
      simp
    next => cases hfile

/-- A place below the packs directory of the bundle. -/
def Below (site : Site) (path : String) : Prop :=
  ∃ names, names ≠ [] ∧ (site.place path).path = (site.place site.packsRoot).path ++ names

/-- A pack with the name that is asked for, as its file name, its stem or its id. -/
def Named (site : Site) (targetPack path : String) : Prop :=
  (site.place path).path.getLast? = some targetPack ∨ site.fileStem path = some targetPack
    ∨ ∃ parsed, site.loadPackOffers path = .ok parsed ∧ parsed.packId = targetPack

theorem place_packsRoot : ∃ path, (site.place site.packsRoot).path = path ++ ["packs"] :=
  ⟨_, path_under_join site.cwd site.bundle (by decide)⟩

/-- The packs that are discovered are below the packs directory. -/
theorem below_of_discovered {paths : List String} (h : site.discoverGtpacks site.packsRoot = .ok paths) :
    ∀ path ∈ paths, site.Below path := by
  unfold discoverGtpacks at h
  split at h
  · cases h
  · cases h
    intro path hpath
    obtain ⟨names, hnames, rfl⟩ := List.mem_map.mp hpath
    rw [List.mem_insertionSort] at hnames
    obtain ⟨full, hfull, rfl⟩ := List.mem_map.mp hnames
    obtain ⟨hfile, hkind⟩ := List.mem_filter.mp hfull
    obtain ⟨file, hmem, rfl⟩ := List.mem_map.mp hfile
    rw [Bool.and_eq_true, List.isPrefixOf_iff_prefix] at hkind
    obtain ⟨⟨back, hback⟩, hextension⟩ := hkind
    have hdrop : file.1.drop (site.place site.packsRoot).path.length = back := by
      rw [← hback, List.drop_left]
    refine ⟨back, ?_, ?_⟩
    · -- The packs directory itself is not named like a pack.
      rintro rfl
      obtain ⟨path, hroot⟩ := site.place_packsRoot
      rw [← hback, List.append_nil, hroot, extension, List.getLast?_concat] at hextension
      revert hextension
      decide
    · rw [hdrop]
      refine path_under_joins site.cwd site.packsRoot fun name hname => ?_
      refine site.names_plain file hmem name ?_
      rw [← hback]
      exact List.mem_append_right _ hname

theorem findDiscovered_eq_ok {targetPack path : String} {paths : List String}
    (h : site.findDiscovered targetPack paths = .ok path) : path ∈ paths ∧ site.Named targetPack path := by
  induction paths with
  | nil => cases h
  | cons first rest ih =>
    unfold findDiscovered at h
    split at h
    next hstem =>
      cases h
      exact ⟨List.mem_cons_self, .inr (.inl hstem)⟩
    next =>
      obtain ⟨parsed, hparsed, h⟩ := Outcome.bind_eq_ok_iff.mp h
      split at h
      next hid =>
        cases h
        exact ⟨List.mem_cons_self, .inr (.inr ⟨parsed, hparsed, hid⟩)⟩
      next =>
        obtain ⟨hmem, hnamed⟩ := ih h
        exact ⟨List.mem_cons_of_mem first hmem, hnamed⟩

theorem splitExtension_gtpack {name : String} (h : Plain name) : (splitExtension (name ++ ".gtpack")).1 = name := by
  have hreverse : (name ++ ".gtpack").toList.reverse = "kcaptg".toList ++ '.' :: name.toList.reverse := by
    rw [String.toList_append, List.reverse_append]
    rfl
  have hdrop : ("kcaptg".toList ++ '.' :: name.toList.reverse).dropWhile (· != '.')
      = '.' :: name.toList.reverse := by
    rw [List.dropWhile_append_of_pos (List.all_eq_true.mp (by decide))]
    rfl
  unfold splitExtension
  dsimp only
  rw [hreverse, hdrop]
  cases hname : name.toList.reverse with
  | nil => exact absurd (by simpa using hname) h.not_empty
  | cons c rest =>
    dsimp only
    rw [← hname, List.reverse_reverse, String.ofList_toList]

theorem plain_append_gtpack {name : String} (h : Plain name) : Plain (name ++ ".gtpack") := by
  have hlong : ∀ other : String, other.length ≤ 2 → name ++ ".gtpack" ≠ other := by
    rintro other hshort rfl
    rw [String.length_append, show ".gtpack".length = 7 from rfl] at hshort
    omega
  refine ⟨hlong "" (by decide), hlong "." (by decide), hlong ".." (by decide), ?_⟩
  rw [String.toList_append, List.mem_append, not_or]
  exact ⟨h.no_slash, by decide⟩

/-- The pack of a target is named like it, and found below the packs directory, unless the working
directory has an entry of that name. -/
theorem resolveDispatchPackPath_eq_ok {targetPack path : String} (hpack : Plain targetPack)
    (h : site.resolveDispatchPackPath targetPack = .ok path) :
    site.Named targetPack path
      ∧ ((path = targetPack ∧ site.pathExists targetPack = true) ∨ site.Below path) := by
  unfold resolveDispatchPackPath at h
  split at h
  next candidate hfind =>
    cases h
    have hexists := List.find?_some hfind
    have hmem := List.mem_of_find?_eq_some hfind
    simp only [candidates, List.mem_cons, List.not_mem_nil, or_false] at hmem
    rcases hmem with rfl | rfl | rfl
    · refine ⟨.inl ?_, .inl ⟨rfl, hexists⟩⟩
      rw [place, path_under_singleton, relative_of_plain hpack, split_of_plain hpack]
      simp [enter_plain _ hpack]
    · have hplace := path_under_join site.cwd site.packsRoot hpack
      refine ⟨.inl ?_, .inr ⟨[targetPack], List.cons_ne_nil _ _, hplace⟩⟩
      rw [place, hplace, List.getLast?_concat]
    · have hplace := path_under_join site.cwd site.packsRoot (plain_append_gtpack hpack)
      refine ⟨.inr (.inl ?_), .inr ⟨[targetPack ++ ".gtpack"], List.cons_ne_nil _ _, hplace⟩⟩
      rw [fileStem, place, hplace, List.getLast?_concat, Option.map_some, splitExtension_gtpack hpack]
  next =>
    obtain ⟨paths, hpaths, h⟩ := Outcome.bind_eq_ok_iff.mp h
    obtain ⟨hmem, hnamed⟩ := findDiscovered_eq_ok h
    exact ⟨hnamed, .inr (below_of_discovered hpaths path hmem)⟩

/-- **Within the bundle**: a target that is run is run as it was checked, with the pack that it names. -/
structure DispatchesWithin (site : Site) (target : DispatchTarget) (request : RunRequest) : Prop where
  below : (site.pathExists target.pack = true → site.Below target.pack) → site.Below request.packPath
  present : site.pathExists request.packPath = true
  named : site.Named target.pack request.packPath
  safe : SafeTarget target
  tenant : request.tenant = target.tenant
  team : request.team = target.team.or site.ctx.team
  flow : ∃ packMeta, site.readPackMeta request.packPath = .ok packMeta
    ∧ target.flow.or packMeta.entryFlows.head? = some request.flowId
  told : request.input.get "hook_dispatch" = some (targetValue target)

theorem dispatchesWithin (h : site.dispatchRequest codec body target = .ok request) :
    site.DispatchesWithin target request := by
  obtain ⟨hsafe, packMeta, hpath, hmeta, hflow, htenant, hteam, hinput⟩ := dispatchRequest_eq_ok h
  obtain ⟨hnamed, hplace⟩ := resolveDispatchPackPath_eq_ok (plain_of_safe hsafe.pack) hpath
  refine ⟨fun hcwd => ?_, pathExists_of_readPackMeta hmeta, hnamed, hsafe, htenant, hteam,
    ⟨packMeta, hmeta, hflow⟩, ?_⟩
  · rcases hplace with ⟨heq, hexists⟩ | hbelow
    · rw [heq]
      exact hcwd hexists
    · exact hbelow
  · rw [hinput, dispatchInput, Value.get_ofFields (by simp)]
    rfl

end Site

/-- The dispatch of a hook is the run of the request it comes to. -/
theorem dispatchToTarget_eq (site : Site) (codec : Codec) (body : HookIngressBody)
    (run : RunRequest → Except String Unit) {w : World} {i : Nat}
    (h : ∀ target, w.runTarget i target = site.requestFor codec body target >>= run) (target : DispatchTarget) :
    dispatchToTarget w i target = site.dispatchRequest codec body target >>= run := by
  unfold dispatchToTarget Site.dispatchRequest
  rw [h, bind_assoc]

/-! ## The two forms of a target -/

/-- The parts of a target, as texts. -/
structure TargetTexts where
  tenant : String
  team : Option String
  pack : String
  flow : Option String
  node : Option String

namespace TargetTexts

variable (texts : TargetTexts)

/-- The last parts of a target as a text; a node keeps the place of a flow that is not there. -/
def back : List String :=
  match texts.flow, texts.node with
  | none, none => []
  | some flow, none => [flow]
  | none, some node => ["", node]
  | some flow, some node => [flow, node]

def parts : List String := [texts.tenant, texts.team.getD "", texts.pack] ++ texts.back

def stringForm : Value := .string (Text.joinWith '/' texts.parts)

def fields : List (String × Value) :=
  [("tenant", .string texts.tenant), ("pack", .string texts.pack)]
    ++ Value.present "team" (texts.team.map .string) ++ Value.present "flow" (texts.flow.map .string)
    ++ Value.present "node" (texts.node.map .string)

def objectForm : Value := .ofFields texts.fields

/-- A part without the white space at its ends, where something is left. -/
def filled (text : Option String) : Option String := (text.map Text.trim).filter (· != "")

/-- A target as it can be spelled in one text: nothing is left out before a part that is there. -/
structure Proper (texts : TargetTexts) : Prop where
  tenant : Text.trim texts.tenant ≠ ""
  team : filled texts.team ≠ none
  pack : Text.trim texts.pack ≠ ""
  flow : filled texts.node ≠ none → filled texts.flow ≠ none
  no_slash : ∀ part ∈ texts.parts, '/' ∉ part.toList

variable {texts}

theorem filter_back :
    (texts.back.map Text.trim).filter (· != "") = (filled texts.flow).toList ++ (filled texts.node).toList := by
  have hone : ∀ text : String, ([text].map Text.trim).filter (· != "") = (filled (some text)).toList := by
    intro text
    unfold filled
    rw [Option.map_some, List.map_singleton, List.filter_cons, List.filter_nil, Option.filter_some]
    split <;> rfl
  unfold back
  cases texts.flow with
  | none =>
    cases texts.node with
    | none => rfl
    | some node => exact hone node
  | some flow =>
    cases texts.node with
    | none => exact (hone flow).trans (List.append_nil _).symm
    | some node =>
      rw [← hone, ← hone, ← List.filter_append, ← List.map_append]
      rfl

/-- What a proper target is read as, in either form. -/
def read (texts : TargetTexts) : DispatchTarget where
  tenant := Text.trim texts.tenant
  team := filled texts.team
  pack := Text.trim texts.pack
  flow := filled texts.flow
  node := filled texts.node

theorem nodup_fields : (texts.fields.map Prod.fst).Nodup := by
  unfold fields
  cases texts.team <;> cases texts.flow <;> cases texts.node <;> simp [Value.present]

/-- The fields of the object are the parts. -/
theorem textField_objectForm : textField texts.objectForm "tenant" = some texts.tenant
    ∧ textField texts.objectForm "pack" = some texts.pack ∧ textField texts.objectForm "team" = texts.team
    ∧ textField texts.objectForm "flow" = texts.flow ∧ textField texts.objectForm "node" = texts.node := by
  have hget : ∀ name, textField texts.objectForm name = (texts.fields.lookup name).bind Value.asStr := by
    intro name
    rw [textField, objectForm, Value.get_ofFields nodup_fields]
  simp only [hget, fields]
  cases texts.team <;> cases texts.flow <;> cases texts.node <;> exact ⟨rfl, rfl, rfl, rfl, rfl⟩

theorem parseDispatch_objectForm (h : texts.Proper) : parseDispatch (some texts.objectForm) = some texts.read := by
  obtain ⟨htenant, hpack, hteam, hflow, hnode⟩ := texts.textField_objectForm
  obtain ⟨stored, hstored, -⟩ := Value.ofFields_perm texts.nodup_fields
  have hstr : texts.objectForm.asStr = none := by
    rw [objectForm, hstored]
    rfl
  have hobject : texts.objectForm.asObject = some stored := by
    rw [objectForm, hstored]
    rfl
  have hblank : ((Text.trim texts.tenant).isEmpty || (Text.trim texts.pack).isEmpty) = false := by
    simp [h.tenant, h.pack]
  simp only [parseDispatch, Option.bind_eq_bind, Option.bind_some, hstr, hobject, htenant, hpack, hblank,
    filledField, hteam, hflow, hnode]
  rfl

theorem parseDispatch_stringForm (h : texts.Proper) : parseDispatch (some texts.stringForm) = some texts.read := by
  have hsplit : Text.split '/' (Text.joinWith '/' texts.parts) = texts.parts :=
    Text.split_joinWith (by simp [parts]) h.no_slash
  obtain ⟨team, hteam⟩ := Option.ne_none_iff_exists'.mp h.team
  obtain ⟨teamText, hgiven, htrim⟩ := Option.map_eq_some_iff.mp (Option.eq_some_of_filter_eq_some hteam)
  have hfilled : team ≠ "" := by simpa using (Option.filter_eq_some_iff.mp hteam).2
  have hsegments : (texts.parts.map Text.trim).filter (· != "")
      = [Text.trim texts.tenant, team, Text.trim texts.pack]
        ++ ((filled texts.flow).toList ++ (filled texts.node).toList) := by
    rw [parts, List.map_append, List.filter_append, filter_back, hgiven]
    simp [h.tenant, h.pack, htrim, hfilled]
  have hstr : texts.stringForm.asStr = some (Text.joinWith '/' texts.parts) := rfl
  simp only [parseDispatch, Option.bind_eq_bind, Option.bind_some, hstr, parseDispatchTargetString, hsplit,
    hsegments, read, hteam]
  have hproper := h.flow
  cases hflow : filled texts.flow with
  | none =>
    have hnode : filled texts.node = none := by
      by_contra hnode
      exact hproper hnode hflow
    rw [hnode]
    rfl
  | some flow =>
    cases filled texts.node <;> rfl

end TargetTexts

/-- **Dispatch within the bundle**: a target that is run stays within the bundle in all that it names itself,
and a target that leaves nothing out before a part that is there is the same target in both forms. -/
theorem dispatch_within (site : Site) (codec : Codec) (body : HookIngressBody) (target : DispatchTarget)
    (request : RunRequest) (h : site.dispatchRequest codec body target = .ok request) :
    site.DispatchesWithin target request
      ∧ ∀ texts : TargetTexts, texts.Proper →
        parseDispatch (some texts.stringForm) = some texts.read
          ∧ parseDispatch (some texts.objectForm) = some texts.read :=
  ⟨Site.dispatchesWithin h, fun _ hproper =>
    ⟨TargetTexts.parseDispatch_stringForm hproper, TargetTexts.parseDispatch_objectForm hproper⟩⟩

/-! ## Two bundles -/

/-- A codec that is not asked for anything. -/
def idleCodec : Codec where
  base64Encode _ := ""
  base64Decode _ := none
  fromCbor _ := none
  toCanonicalCbor _ := none
  toText _ := ""
  readEnvelope _ := none

def emptyBody : HookIngressBody where
  request := .null
  responseStatus := 200
  responseHeaders := []
  responseBody := none
  events := []

def chatManifest (entryFlow : String) : PackManifest :=
  { packMeta := some ⟨"chat", [entryFlow]⟩, packId := none, flows := [] }

/-- A file below the root, and the directories it is in. -/
def siteWith (dirs : List Path) (file : Path) (contents : DispatchFile) (h : ∀ name ∈ file, Plain name) : Site where
  disk := { files := [(file, contents)], dirs }
  names_plain := by
    intro entry hentry
    rw [List.mem_singleton.mp hentry]
    exact h
  cwd := ["work"]
  bundle := "/bundle"
  domain := .Messaging
  ctx := { tenant := "acme", team := some "../ops", correlationId := none }

/-- The pack is a file in the packs directory. -/
def packedSite : Site :=
  siteWith [["bundle"], ["bundle", "packs"]] ["bundle", "packs", "chat.gtpack"]
    ⟨.error "", .ok (chatManifest "main"), .error ""⟩ (by decide)

/-- The pack is a directory in the packs directory. -/
def unpackedSite : Site :=
  siteWith [["bundle"], ["bundle", "packs"], ["bundle", "packs", "chat"]] ["bundle", "packs", "chat", "manifest.cbor"]
    ⟨.error "", .error "", .ok (chatManifest "../main")⟩ (by decide)

/-- The working directory has a file with the name of the pack. -/
def shadowedSite : Site :=
  siteWith [["work"], ["bundle"], ["bundle", "packs"]] ["work", "chat"]
    ⟨.error "", .ok (chatManifest "main"), .error ""⟩ (by decide)

def chatTarget (team flow : Option String) : DispatchTarget where
  tenant := "acme"
  team
  pack := "chat"
  flow
  node := none

def chatRun (packPath flowId : String) (team : Option String) (target : DispatchTarget) : RunRequest where
  root := "/bundle"
  domain := .Messaging
  packPath
  packLabel := "chat"
  flowId
  tenant := "acme"
  team
  input := Site.dispatchInput idleCodec emptyBody target
  distOffline := true

theorem dispatch_packed : (packedSite.DispatchesWithin (chatTarget (some "ops") none)
      (chatRun "/bundle/packs/chat.gtpack" "main" (some "ops") (chatTarget (some "ops") none)))
    ∧ ∀ texts : TargetTexts, texts.Proper →
      parseDispatch (some texts.stringForm) = some texts.read
        ∧ parseDispatch (some texts.objectForm) = some texts.read :=
  dispatch_within packedSite idleCodec emptyBody (chatTarget (some "ops") none) _ (by rfl)

/-- A pack in the working directory is run in the place of one in the bundle; a pack that is a directory is no
file, and is run with a team and a flow that are not safe; a target without a team is another one as a text. -/
theorem dispatch_leaves_bundle :
    (∃ request, shadowedSite.dispatchRequest idleCodec emptyBody (chatTarget (some "ops") (some "main")) = .ok request
        ∧ ¬ shadowedSite.Below request.packPath)
      ∧ (∃ request, unpackedSite.dispatchRequest idleCodec emptyBody (chatTarget none none) = .ok request
        ∧ (∀ file, unpackedSite.openFile request.packPath ≠ .ok file)
        ∧ request.team = some "../ops" ∧ isSafeSegment "../ops" = false ∧ isSafeSegment request.flowId = false)
      ∧ ∃ texts : TargetTexts, ∃ target other,
        parseDispatch (some texts.objectForm) = some target ∧ SafeTarget target
          ∧ parseDispatch (some texts.stringForm) = some other ∧ SafeTarget other ∧ other ≠ target := by
  refine ⟨⟨chatRun "chat" "main" (some "ops") (chatTarget (some "ops") (some "main")), by rfl, ?_⟩,
    ⟨chatRun "/bundle/packs/chat" "../main" (some "../ops") (chatTarget none none), by rfl, ?_, rfl, by decide,
      by decide⟩,
    ⟨"acme", none, "chat", some "main", none⟩, chatTarget none (some "main"), ⟨"acme", some "chat", "main", none, none⟩,
    ?_, ?_, ?_, ?_, by decide⟩
  · rintro ⟨names, -, hplace⟩
    have hpath : (shadowedSite.place "chat").path = ["work", "chat"] := by decide +kernel
    have hroot : (shadowedSite.place shadowedSite.packsRoot).path = ["bundle", "packs"] := by decide +kernel
    have happend := hpath.symm.trans (hplace.trans (congrArg (· ++ names) hroot))
    exact absurd (List.cons.inj happend).1 (by decide)
  · intro file hfile
    have hdir : unpackedSite.openFile "/bundle/packs/chat" = .error "no such file" := by rfl
    cases hdir.symm.trans hfile
  · decide +kernel
  · exact ensureDispatchTargetSafe_eq_ok_iff.mp (by decide +kernel)
  · decide +kernel
  · exact ensureDispatchTargetSafe_eq_ok_iff.mp (by decide +kernel)

end Hooks
