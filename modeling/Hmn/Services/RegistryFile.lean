/-
  Hmn.Services.RegistryFile — the service registry as a file.

  A registry is saved as an indented document with sorted keys.  Loading takes
  every field of a record from the document with a coercion and a fallback of
  its own.  For a record that has its texts none of the fallbacks is taken,
  and what is loaded is what was saved; saving fails when an integer has more
  digits than are printed.

  Main results: `save_load`, `long_port_not_saved`.
-/
import Hmn.Approval.CallbackPoll
import Hmn.Framework.JsonRoundtrip
import Hmn.Services.Discovery
import Hmn.Services.Merge
import Hmn.Services.Registry

namespace Hmn

open Framework

/-! ## §1. A record as a dictionary. -/

def textArray (xs : List String) : Json := .arr (xs.map .str)

def textOrNull : Option String → Json
  | none => .null
  | some s => .str s

/-- `ServiceRecord.to_dict`. -/
def RegistryService.toDict (s : RegistryService) : Dict := [
  ("service_id", .str s.serviceId),
  ("name", .str s.name),
  ("node", .str s.node),
  ("kind", .str s.kind),
  ("domains", textArray s.domains),
  ("ports", .arr (s.ports.map .int)),
  ("runtime", textOrNull s.runtime),
  ("deploy_path", .str s.deployPath),
  ("config_paths", textArray s.configPaths),
  ("env_paths", textArray s.envPaths),
  ("data_paths", textArray s.dataPaths),
  ("health_check_url", .str s.healthCheckUrl),
  ("source", .str s.source),
  ("docs_path", textOrNull s.docsPath),
  ("monitor", .obj s.monitor),
  ("warnings", textArray s.warnings),
  ("metadata", .obj s.metadata)]

/-- An entry of the list that `dict` takes.  A key that is no text is none of
a `dict[str, Any]`. -/
def pairOf (index : Nat) (item : Json) : Except PyError (String × Json) := do
  let entries ←
    match item with
    | .null | .bool _ | .int _ | .float _ =>
      .error (.type ("cannot convert dictionary update sequence element #" ++ toString index
        ++ " to a sequence"))
    | item => pyList item
  match entries with
  | [.str key, value] => return (key, value)
  | [.arr _, _] => .error (unhashable "list")
  | [.obj _, _] => .error (unhashable "dict")
  | [key, _] => .error (.type ("a key is a text, not '" ++ typeName key ++ "'"))
  | entries =>
    .error (.value ("dictionary update sequence element #" ++ toString index ++ " has length "
      ++ toString entries.length ++ "; 2 is required"))

/-- `dict(value)`. -/
def pyDict : Json → Except PyError Dict
  | .obj kvs => .ok kvs
  | value => do
    let items ← pyList value
    let pairs ← items.zipIdx.mapM fun item => pairOf item.2 item.1
    return Dict.merge [] pairs

/-- `payload.get(key, [])`, iterated over. -/
def itemsAt (payload : Dict) (key : String) : Except PyError (List Json) :=
  pyList ((payload.get? key).getD (.arr []))

/-- `[str(item) for item in payload.get(key, [])]`. -/
def textsAt (payload : Dict) (key : String) : Except PyError (List String) := do
  let items ← itemsAt payload key
  return items.map Json.asStr

/-- `None if payload.get(key) is None else str(payload.get(key, ""))`. -/
def textOrNoneAt (payload : Dict) (key : String) : Option String :=
  match payload.get? key with
  | none | some .null => none
  | some value => some value.asStr

/-- `dict(payload.get(key) or {})`. -/
def pyDictAt (payload : Dict) (key : String) : Except PyError Dict :=
  match (payload.get? key).filter Json.truthy with
  | none => .ok []
  | some value => pyDict value

/-- `ServiceRecord.from_dict`. -/
def RegistryService.fromDict (payload : Dict) : Except PyError RegistryService := do
  let serviceId ←
    match payload.get? "service_id" with
    | some value => Except.ok value.asStr
    | none => .error (.key "service_id")
  let domains ← textsAt payload "domains"
  let ports ← (← itemsAt payload "ports").mapM jsonInt
  let configPaths ← textsAt payload "config_paths"
  let envPaths ← textsAt payload "env_paths"
  let dataPaths ← textsAt payload "data_paths"
  let monitor ← pyDictAt payload "monitor"
  let warnings ← textsAt payload "warnings"
  let metadata ← pyDictAt payload "metadata"
  return {
    serviceId := serviceId
    name := payload.getStr "name" serviceId
    node := payload.getStr "node" (payload.getStr "node_id" "")
    kind := payload.getStr "kind" "unknown"
    domains := domains
    ports := ports
    runtime := textOrNoneAt payload "runtime"
    deployPath := payload.getStr "deploy_path" ""
    configPaths := configPaths
    envPaths := envPaths
    dataPaths := dataPaths
    healthCheckUrl := payload.getStr "health_check_url" ""
    source := payload.getStr "source" "manual"
    docsPath := textOrNoneAt payload "docs_path"
    monitor := monitor
    warnings := warnings
    metadata := metadata }

/-! ## §2. The file. -/

namespace Framework.Json

mutual

/-- Every integer can be printed. -/
def printable : Json → Bool
  | .int n => n.natAbs < 10 ^ Text.maxDigits
  | .null | .bool _ | .float _ | .str _ => true
  | .arr xs => printableAll xs
  | .obj kvs => printableFields kvs

def printableAll : List Json → Bool
  | [] => true
  | x :: xs => printable x && printableAll xs

def printableFields : List (String × Json) → Bool
  | [] => true
  | (_, x) :: kvs => printable x && printableFields kvs

end

end Framework.Json

/-- `str` of an integer with too many digits. -/
def exceedsPrinted : PyError :=
  .value "Exceeds the limit (4300 digits) for integer string conversion"

/-- `ServiceRegistry.to_dict`. -/
def ServiceRegistry.toDict (registry : ServiceRegistry) : Dict :=
  [("services", .arr (registry.listServices.map fun s => .obj s.toDict))]

/-- `ServiceRegistry.save`: the text that is written. -/
def ServiceRegistry.save (registry : ServiceRegistry) : Except PyError String :=
  if Json.printable (.obj registry.toDict) then .ok (Json.obj registry.toDict).dumpsIndented
  else .error exceedsPrinted

/-- `json.loads(text)`. -/
def jsonLoads (floatOf : List Char → PyFloat) (text : String) : Except PyError Json :=
  match JsonText.read text with
  | .error .decode => .error (.value "JSONDecodeError")
  | .error (.digits n) => .error (exceedsLimit n)
  | .ok value =>
    match JsonText.toJson? floatOf value with
    | some v => .ok v
    | none => .error surrogatesNotAllowed

/-- The dictionaries of a list. -/
def dicts (items : List Json) : List Dict :=
  items.filterMap fun
    | .obj kvs => some kvs
    | _ => none

/-- `ServiceRegistry.load`, of a file with this text. -/
def ServiceRegistry.load (floatOf : List Char → PyFloat) (content : String) :
    Except PyError ServiceRegistry := do
  let payload ← jsonLoads floatOf (String.ofList (universalNewlines content.toList))
  let services ←
    match payload with
    | .obj kvs => itemsAt kvs "services"
    | _ => Except.ok []
  let records ← (dicts services).mapM RegistryService.fromDict
  return ServiceRegistry.ofList records

/-! ## §3. What the readers give. -/

theorem getStr_of_text {d : Dict} {key t : String} (h : d.get? key = some (.str t))
    {default : String} (ht : t ≠ "" ∨ default = "") : d.getStr key default = t := by
  rw [Dict.getStr, h]
  dsimp only
  rw [Json.truthy_str, Json.asStr_str]
  by_cases hempty : t = ""
  · obtain hne | rfl := ht
    · exact absurd hempty hne
    · rw [hempty]
      rfl
  · rw [if_pos (decide_eq_true hempty)]

theorem textsAt_of_array {d : Dict} {key : String} {xs : List String}
    (h : d.get? key = some (textArray xs)) : textsAt d key = .ok xs := by
  have htexts : (xs.map Json.str).map Json.asStr = xs := by
    rw [List.map_map]
    exact List.map_id xs
  rw [textsAt, itemsAt, h, Option.getD_some, textArray, pyList, Fallible.bind_ok, htexts]
  rfl

theorem textOrNoneAt_of_textOrNull {d : Dict} {key : String} {t : Option String}
    (h : d.get? key = some (textOrNull t)) : textOrNoneAt d key = t := by
  rw [textOrNoneAt, h]
  cases t <;> rfl

theorem pyDictAt_of_obj {d : Dict} {key : String} {kvs : Dict}
    (h : d.get? key = some (.obj kvs)) : pyDictAt d key = .ok kvs := by
  rw [pyDictAt, h]
  cases kvs <;> rfl

theorem mapM_jsonInt (ports : List Int) : (ports.map Json.int).mapM jsonInt = .ok ports := by
  rw [Fallible.mapM_eq_ok, List.forall₂_map_left_iff]
  exact List.forall₂_same.mpr fun _ _ => rfl

/-! ## §4. A record comes back. -/

/-- The record with the members of its dictionaries in the order of the file. -/
def RegistryService.sorted (s : RegistryService) : RegistryService :=
  { s with monitor := s.monitor.sortKeys, metadata := s.metadata.sortKeys }

theorem textArray_sortKeys (xs : List String) : (textArray xs).sortKeys = textArray xs := by
  rw [textArray, Json.sortKeys, Json.sortKeysList_eq, List.map_map]
  rfl

theorem textOrNull_sortKeys (t : Option String) : (textOrNull t).sortKeys = textOrNull t := by
  cases t <;> rfl

theorem ports_sortKeys (ports : List Int) :
    (Json.arr (ports.map .int)).sortKeys = .arr (ports.map .int) := by
  rw [Json.sortKeys, Json.sortKeysList_eq, List.map_map]
  rfl

/-- **What a file says of a record is read as the record**: none of the
fallbacks is taken. -/
theorem fromDict_toDict {s : RegistryService} (hname : s.name ≠ "") (hkind : s.kind ≠ "")
    (hsource : s.source ≠ "") : RegistryService.fromDict s.toDict.sortKeys = .ok s.sorted := by
  have hget (key : String) {v w : Json} (h : s.toDict.get? key = some v) (hv : v.sortKeys = w) :
      s.toDict.sortKeys.get? key = some w := by
    rw [Dict.get?_sortKeys, h, Option.map_some, hv]
  have htext (key : String) {t default : String} (h : s.toDict.get? key = some (.str t))
      (ht : t ≠ "" ∨ default = "") : s.toDict.sortKeys.getStr key default = t :=
    getStr_of_text (hget key h rfl) ht
  have htexts (key : String) {xs : List String} (h : s.toDict.get? key = some (textArray xs)) :
      textsAt s.toDict.sortKeys key = .ok xs :=
    textsAt_of_array (hget key h (textArray_sortKeys xs))
  have hmaybe (key : String) {t : Option String} (h : s.toDict.get? key = some (textOrNull t)) :
      textOrNoneAt s.toDict.sortKeys key = t :=
    textOrNoneAt_of_textOrNull (hget key h (textOrNull_sortKeys t))
  have hdict (key : String) {kvs : Dict} (h : s.toDict.get? key = some (.obj kvs)) :
      pyDictAt s.toDict.sortKeys key = .ok kvs.sortKeys :=
    pyDictAt_of_obj (hget key h rfl)
  have hid : s.toDict.sortKeys.get? "service_id" = some (.str s.serviceId) :=
    hget "service_id" rfl rfl
  have hports : itemsAt s.toDict.sortKeys "ports" = .ok (s.ports.map .int) := by
    rw [itemsAt, hget "ports" rfl (ports_sortKeys s.ports)]
    rfl
  have hnodeId : s.toDict.sortKeys.getStr "node_id" "" = "" := by
    have hnone : s.toDict.get? "node_id" = none := rfl
    rw [Dict.getStr, Dict.get?_sortKeys, hnone]
    rfl
  unfold RegistryService.fromDict
  -- the lists and the dictionaries, in the order in which they are read
  rw [hid, htexts "domains" rfl, hports, htexts "config_paths" rfl, htexts "env_paths" rfl,
    htexts "data_paths" rfl, hdict "monitor" rfl, htexts "warnings" rfl, hdict "metadata" rfl]
  simp only [mapM_jsonInt, Fallible.bind_ok, Json.asStr_str]
  rw [htext "name" rfl (Or.inl hname), htext "kind" rfl (Or.inl hkind),
    htext "source" rfl (Or.inl hsource), hnodeId, htext "node" rfl (Or.inr rfl),
    htext "deploy_path" rfl (Or.inr rfl), htext "health_check_url" rfl (Or.inr rfl),
    hmaybe "runtime" rfl, hmaybe "docs_path" rfl]
  rfl

/-! ## §5. The registry comes back. -/

/-- A record that can be saved: the texts that have a fallback are not empty,
its integers can be printed, and its dictionaries are JSON. -/
structure RegistryService.Saveable (floatOf : List Char → PyFloat) (s : RegistryService) :
    Prop where
  name : s.name ≠ ""
  kind : s.kind ≠ ""
  source : s.source ≠ ""
  ports : ∀ port ∈ s.ports, port.natAbs < 10 ^ Text.maxDigits
  monitor : Json.Writable floatOf (.obj s.monitor)
  metadata : Json.Writable floatOf (.obj s.metadata)

/-- `a == b`: every field is the same, those of the dictionaries up to the
order of their members. -/
structure RegistryService.Same (a b : RegistryService) : Prop where
  fields : { b with monitor := a.monitor, metadata := a.metadata } = a
  monitor : Dict.Same a.monitor b.monitor
  metadata : Dict.Same a.metadata b.metadata

/-- The record of the file is the same. -/
theorem RegistryService.same_sorted (s : RegistryService) : RegistryService.Same s s.sorted :=
  ⟨rfl, Dict.same_sortKeys s.monitor, Dict.same_sortKeys s.metadata⟩

section

variable {floatOf : List Char → PyFloat}

theorem writable_textArray (xs : List String) : Json.Writable floatOf (textArray xs) := by
  rw [textArray, Json.Writable, Json.writableAll_iff]
  intro x hx
  obtain ⟨s, -, rfl⟩ := List.mem_map.mp hx
  exact trivial

theorem writable_textOrNull (t : Option String) : Json.Writable floatOf (textOrNull t) := by
  cases t <;> exact trivial

theorem RegistryService.Saveable.writable {s : RegistryService} (h : s.Saveable floatOf) :
    Json.Writable floatOf (.obj s.toDict) := by
  have hkeys : (s.toDict.map Prod.fst).Nodup := by
    have hlist : s.toDict.map Prod.fst = ["service_id", "name", "node", "kind", "domains", "ports",
        "runtime", "deploy_path", "config_paths", "env_paths", "data_paths", "health_check_url",
        "source", "docs_path", "monitor", "warnings", "metadata"] := rfl
    rw [hlist]
    decide
  have hports : Json.Writable floatOf (.arr (s.ports.map .int)) := by
    rw [Json.Writable, Json.writableAll_iff, List.forall_mem_map]
    exact h.ports
  exact ⟨hkeys, trivial, trivial, trivial, trivial, writable_textArray _, hports,
    writable_textOrNull _, trivial, writable_textArray _, writable_textArray _,
    writable_textArray _, trivial, trivial, writable_textOrNull _, h.monitor,
    writable_textArray _, h.metadata, trivial⟩

theorem ServiceRegistry.writable_toDict {registry : ServiceRegistry}
    (h : ∀ s ∈ registry.listServices, s.Saveable floatOf) :
    Json.Writable floatOf (.obj registry.toDict) := by
  have hrecords : Json.Writable floatOf
      (.arr (registry.listServices.map fun s => .obj s.toDict)) := by
    rw [Json.Writable, Json.writableAll_iff, List.forall_mem_map]
    exact fun s hs => (h s hs).writable
  exact ⟨List.nodup_singleton _, hrecords, trivial⟩

mutual

theorem printable_of_writable : (v : Json) → Json.Writable floatOf v → v.printable = true
  | .null, _ | .bool _, _ | .float _, _ | .str _, _ => rfl
  | .int n, h => by
    rw [Json.printable, decide_eq_true_eq]
    exact h
  | .arr xs, h => by
    rw [Json.printable]
    exact printableAll_of_writable xs h
  | .obj kvs, h => by
    rw [Json.printable]
    exact printableFields_of_writable kvs h.2

theorem printableAll_of_writable : (xs : List Json) → Json.WritableAll floatOf xs →
    Json.printableAll xs = true
  | [], _ => rfl
  | x :: xs, h => by
    rw [Json.printableAll, printable_of_writable x h.1, printableAll_of_writable xs h.2]
    rfl

theorem printableFields_of_writable : (kvs : List (String × Json)) →
    Json.WritableFields floatOf kvs → Json.printableFields kvs = true
  | [], _ => rfl
  | (_, x) :: kvs, h => by
    rw [Json.printableFields, printable_of_writable x h.1, printableFields_of_writable kvs h.2]
    rfl

end

/-- What is loaded of a document that was written. -/
theorem jsonLoads_dumpsIndented {v : Json} (h : Json.Writable floatOf v) :
    jsonLoads floatOf (String.ofList (universalNewlines v.dumpsIndented.toList))
      = .ok v.sortKeys := by
  obtain ⟨w, hread, hw⟩ := Json.read_dumpsIndented h
  have hlines := Json.return_not_mem_indented v.sortKeys (Json.writable_sortKeys v h) 0
  have hsame : universalNewlines v.dumpsIndented.toList = v.dumpsIndented.toList :=
    universalNewlines_eq hlines
  rw [hsame, String.ofList_toList, jsonLoads, hread]
  dsimp only
  rw [hw]

/-- What the file of a registry says. -/
theorem ServiceRegistry.sortKeys_toDict (registry : ServiceRegistry) :
    (Json.obj registry.toDict).sortKeys
      = .obj [("services", .arr (registry.listServices.map fun s => .obj s.toDict.sortKeys))] := by
  have hrecords : (Json.arr (registry.listServices.map fun s => .obj s.toDict)).sortKeys
      = .arr (registry.listServices.map fun s => .obj s.toDict.sortKeys) := by
    rw [Json.sortKeys, Json.sortKeysList_eq, List.map_map]
    rfl
  rw [ServiceRegistry.toDict, Json.sortKeys, Json.sortKeysFields, hrecords]
  rfl

theorem dicts_map_obj {α : Type} (f : α → Dict) (xs : List α) :
    dicts (xs.map fun x => .obj (f x)) = xs.map f := by
  rw [dicts, List.filterMap_map]
  exact congrFun List.filterMap_eq_map' xs

/-- Every record of the file is read. -/
theorem mapM_fromDict {services : List RegistryService}
    (h : ∀ s ∈ services, s.Saveable floatOf) :
    (services.map fun s => s.toDict.sortKeys).mapM RegistryService.fromDict
      = .ok (services.map RegistryService.sorted) := by
  rw [Fallible.mapM_eq_ok, List.forall₂_map_left_iff, List.forall₂_map_right_iff]
  exact List.forall₂_same.mpr fun s hs =>
    fromDict_toDict (h s hs).name (h s hs).kind (h s hs).source

/-- **A registry that was saved is loaded**: the records come back in their
order, with the members of the dictionaries in the order of the file, each
equal to the one that was saved. -/
theorem ServiceRegistry.save_load {registry : ServiceRegistry}
    (h : ∀ s ∈ registry.listServices, s.Saveable floatOf) :
    ∃ content loaded, registry.save = .ok content
      ∧ ServiceRegistry.load floatOf content = .ok loaded
      ∧ loaded.listServices = registry.listServices.map RegistryService.sorted
      ∧ List.Forall₂ RegistryService.Same registry.listServices loaded.listServices := by
  have hwritable := registry.writable_toDict h
  have hids : ((registry.listServices.map RegistryService.sorted).map
      RegistryService.serviceId).Nodup := by
    rw [List.map_map]
    exact registry.nodup
  have hlist := listServices_ofList hids
  refine ⟨_, _, if_pos (printable_of_writable _ hwritable), ?_, hlist, ?_⟩
  · have hitems (items : List Json) : itemsAt [("services", .arr items)] "services" = .ok items :=
      rfl
    rw [ServiceRegistry.load, jsonLoads_dumpsIndented hwritable, Fallible.bind_ok,
      registry.sortKeys_toDict]
    dsimp only
    rw [hitems, Fallible.bind_ok, dicts_map_obj, mapM_fromDict h]
    rfl
  · rw [hlist, List.forall₂_map_right_iff]
    exact List.forall₂_same.mpr fun s _ => s.same_sorted

end

/-- Two services, one without a runtime and one whose runtime is empty. -/
def twoServices : List RegistryService := [
  { serviceId := "n1:web", name := "web", node := "n1", kind := "docker", ports := [443, 80],
    runtime := none, docsPath := some "", monitor := [("interval", .float ⟨.finite (3 / 2), "1.5"⟩),
      ("checks", .obj [("url", .str "/"), ("codes", .arr [.int 200, .null])])] },
  { serviceId := "n1:db", name := "db", node := "", kind := "systemd", runtime := some "",
    docsPath := none }]

theorem save_load_twoServices :
    let registry := ServiceRegistry.ofList twoServices
    let floatOf := fun (literal : List Char) =>
      if literal = "1.5".toList then (⟨.finite (3 / 2), "1.5"⟩ : PyFloat) else ⟨.finite 0, "0.0"⟩
    ∃ content loaded, registry.save = .ok content
      ∧ ServiceRegistry.load floatOf content = .ok loaded
      ∧ loaded.listServices = registry.listServices.map RegistryService.sorted
      ∧ List.Forall₂ RegistryService.Same registry.listServices loaded.listServices := by
  refine ServiceRegistry.save_load ?_
  have hids : (twoServices.map RegistryService.serviceId).Nodup := by decide
  rw [listServices_ofList hids]
  have hsmall : ∀ n < 1000, n < 10 ^ Text.maxDigits := fun n hn =>
    hn.trans_le (Nat.pow_le_pow_right (show 0 < 10 by decide) (show 3 ≤ Text.maxDigits by decide))
  have hfloat : Json.FloatWritten (fun (literal : List Char) =>
      if literal = "1.5".toList then (⟨.finite (3 / 2), "1.5"⟩ : PyFloat) else ⟨.finite 0, "0.0"⟩)
      ⟨.finite (3 / 2), "1.5"⟩ := ⟨⟨3 / 2, rfl⟩, rfl, if_pos rfl⟩
  rw [twoServices, List.forall_mem_cons, List.forall_mem_singleton]
  refine ⟨⟨by decide, by decide, by decide, ?_, ?_, ?_⟩,
    ⟨by decide, by decide, by decide, ?_, ?_, ?_⟩⟩
  · rw [List.forall_mem_cons, List.forall_mem_singleton]
    exact ⟨hsmall 443 (by decide), hsmall 80 (by decide)⟩
  · exact ⟨by decide, hfloat, ⟨by decide, trivial, ⟨hsmall 200 (by decide), trivial, trivial⟩,
      trivial⟩, trivial⟩
  · exact ⟨List.nodup_nil, trivial⟩
  · exact fun _ h => (List.not_mem_nil h).elim
  · exact ⟨List.nodup_nil, trivial⟩
  · exact ⟨List.nodup_nil, trivial⟩

/-- A service on a port of 4301 digits. -/
def longPort : RegistryService :=
  { serviceId := "n1:web", name := "web", node := "n1", kind := "docker", ports := [10 ^ 4300] }

/-- **A registry with an integer that is too long is not saved**: nothing can
be loaded. -/
theorem long_port_not_saved :
    let registry := ServiceRegistry.ofList [longPort]
    (∀ s ∈ registry.listServices, s.serviceId ≠ "" ∧ s.name ≠ "" ∧ s.kind ≠ "" ∧ s.source ≠ "")
    ∧ registry.save = .error exceedsPrinted
    ∧ ∀ floatOf, ¬ ∃ content loaded, registry.save = .ok content
      ∧ ServiceRegistry.load floatOf content = .ok loaded
      ∧ List.Forall₂ RegistryService.Same registry.listServices loaded.listServices := by
  have hrows : (ServiceRegistry.ofList [longPort]).listServices = [longPort] :=
    listServices_ofList (List.nodup_singleton _)
  have hlong : Json.printable (.obj (ServiceRegistry.ofList [longPort]).toDict) = false := by
    rw [ServiceRegistry.toDict, hrows]
    decide +kernel
  have hsave : (ServiceRegistry.ofList [longPort]).save = .error exceedsPrinted := by
    rw [ServiceRegistry.save, hlong]
    rfl
  refine ⟨?_, hsave, ?_⟩
  · rw [hrows, List.forall_mem_singleton]
    exact ⟨by decide, by decide, by decide, by decide⟩
  · rintro floatOf ⟨content, loaded, hcontent, -⟩
    cases hsave.symm.trans hcontent

end Hmn
