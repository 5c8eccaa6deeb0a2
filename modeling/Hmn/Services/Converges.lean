/-
  Hmn.Services.Converges — discovery converges.

  What a merge leaves has nothing more to take from the metadata merged in
  (`mergeMetadata_absorbs`), a save keeps that so, and merging again then
  changes nothing (`mergeMetadata_absorbed`).  The fields and the ports are
  fixed by the same argument, and the parsers only build records that the
  argument is about.

  Main result: `discovery_converges`.
-/
import Hmn.Services.Curated
import Hmn.Services.Discovery

namespace Hmn

open Framework Framework.Fallible

/-! ## §1. Metadata that has nothing more to take. -/

/-- The member `kv` has nothing to add to `d`. -/
def AbsorbsKey (d : Dict) (kv : String × Json) : Prop :=
  if kv.1 = "listen_ports" then
    ∃ xs, d.get? "listen_ports" = some (.arr xs)
      ∧ ∀ item, .obj item ∈ listOrEmpty kv.2 → HasMarker xs item
  else
    ∃ w, d.get? kv.1 = some w ∧ ∀ nested value : Dict, w = .obj nested → kv.2 = .obj value →
      ∀ kw ∈ value, nested.get? kw.1 ≠ none

/-- No member of `incoming` has anything to add to `d`. -/
def Absorbs (d incoming : Dict) : Prop := ∀ kv ∈ incoming, AbsorbsKey d kv

theorem get?_ne_none_of_mem {d : Dict} {kv : String × Json} (h : kv ∈ d) : d.get? kv.1 ≠ none := by
  induction d with
  | nil => cases h
  | cons kw d ih =>
    rw [Dict.get?_cons]
    split
    · exact nofun
    · rename_i hne
      rcases List.mem_cons.mp h with rfl | h
      · exact absurd rfl hne
      · exact ih h

theorem get?_setDefault_ne_none (d : Dict) (kv : String × Json) :
    (setDefault d kv.1 kv.2).get? kv.1 ≠ none := by
  rw [get?_setDefault]
  split
  · exact nofun
  · rename_i h
    exact fun hnone => h ⟨rfl, hnone⟩

theorem get?_mergeNested_ne_none (nested value : Dict) {kw : String × Json} (hkw : kw ∈ value) :
    (mergeNested nested value).get? kw.1 ≠ none := by
  unfold mergeNested
  induction value generalizing nested with
  | nil => cases hkw
  | cons kv value ih =>
    rcases List.mem_cons.mp hkw with rfl | hkw
    · obtain ⟨v, hv⟩ := Option.ne_none_iff_exists'.mp (get?_setDefault_ne_none nested kw)
      have hkept := get?_mergeNested_of_some value hv
      rw [mergeNested] at hkept
      rw [List.foldl_cons, hkept]
      exact nofun
    · exact ih _ hkw

/-- One turn of a merge leaves nothing to take from its member. -/
theorem mergeKey_absorbs {merged merged' : Dict} {kv : String × Json} (hports : HashablePorts merged)
    (h : mergeKey merged kv = .ok merged') : AbsorbsKey merged' kv := by
  rcases mergeKey_cases h with ⟨hkey, ys, hys, rfl⟩ | ⟨hkey, hnone, rfl⟩
    | ⟨hkey, nested, value, hsome, hvalue, rfl⟩ | ⟨hkey, rfl, v, hsome, hother⟩
  · rw [AbsorbsKey, if_pos hkey]
    exact ⟨ys, Dict.get?_set_self _ _ _, (mergePorts_ok hports hys).2.2⟩
  · rw [AbsorbsKey, if_neg hkey]
    refine ⟨kv.2, Dict.get?_set_self _ _ _, ?_⟩
    rintro nested value hw hvalue kw hkw
    cases hw.symm.trans hvalue
    exact get?_ne_none_of_mem hkw
  · rw [AbsorbsKey, if_neg hkey]
    refine ⟨_, Dict.get?_set_self _ _ _, ?_⟩
    rintro nested' value' hw hvalue' kw hkw
    cases hw
    cases hvalue.symm.trans hvalue'
    exact get?_mergeNested_ne_none nested value hkw
  · rw [AbsorbsKey, if_neg hkey]
    refine ⟨v, hsome, ?_⟩
    rintro nested value rfl hvalue
    exact absurd hvalue (hother nested value rfl)

/-- A member stays absorbed when values only grow. -/
theorem AbsorbsKey.mono {d d' : Dict} {kv : String × Json}
    (hgrow : ∀ key v, d.get? key = some v →
      ∃ w incoming, d'.get? key = some w ∧ KeepsValue incoming key v w)
    (h : AbsorbsKey d kv) : AbsorbsKey d' kv := by
  by_cases hkey : kv.1 = "listen_ports"
  · rw [AbsorbsKey, if_pos hkey] at *
    obtain ⟨xs, hxs, hall⟩ := h
    obtain ⟨w, incoming, hw, hkeeps⟩ := hgrow _ _ hxs
    rw [KeepsValue, if_pos rfl] at hkeeps
    obtain ⟨xs', ys, heq, rfl, hpre⟩ := hkeeps
    cases heq
    refine ⟨ys, hw, fun item hitem => ?_⟩
    obtain ⟨marker, hmarker, item', hmem, hok⟩ := hall item hitem
    exact ⟨marker, hmarker, item', hpre.subset hmem, hok⟩
  · rw [AbsorbsKey, if_neg hkey] at *
    obtain ⟨v, hv, hall⟩ := h
    obtain ⟨w, incoming, hw, hkeeps⟩ := hgrow _ _ hv
    refine ⟨w, hw, ?_⟩
    rintro nested value rfl hvalue kw hkw
    rw [KeepsValue, if_neg hkey] at hkeeps
    rcases hkeeps with heq | ⟨-, kvs, kws, rfl, heq, hkept⟩
    · exact hall nested value heq.symm hvalue kw hkw
    · cases heq
      obtain ⟨x, hx⟩ := Option.ne_none_iff_exists'.mp (hall kvs value rfl hvalue kw hkw)
      rw [hkept _ _ hx]
      exact Option.some_ne_none x

/-- **What a merge leaves has nothing more to take.** -/
theorem mergeMetadata_absorbs {existing incoming merged : Dict} (hports : HashablePorts existing)
    (h : mergeMetadata existing incoming = .ok merged) : Absorbs merged incoming := by
  unfold mergeMetadata at h
  induction incoming generalizing existing with
  | nil => exact nofun
  | cons kv incoming ih =>
    rw [List.foldlM_cons] at h
    obtain ⟨next, hnext, h⟩ := bind_eq_ok.mp h
    obtain ⟨hports', -⟩ := mergeKey_keeps hports hnext
    refine List.forall_mem_cons.mpr ⟨?_, ih hports' h⟩
    refine (mergeKey_absorbs hports hnext).mono fun key v hv => ?_
    obtain ⟨w, hw, hkeeps⟩ := (mergeMetadata_keeps hports' h).2 key v hv
    exact ⟨w, incoming, hw, hkeeps⟩

/-! ## §2. Saving. -/

/-- The plan writes its source over whatever stands there. -/
theorem AbsorbsKey.set {d : Dict} {kv : String × Json} (source : String) (h : AbsorbsKey d kv) :
    AbsorbsKey (d.set "discovery_source" (.str source)) kv := by
  by_cases hkey : kv.1 = "listen_ports"
  · rw [AbsorbsKey, if_pos hkey] at *
    obtain ⟨xs, hxs, hall⟩ := h
    exact ⟨xs, by rw [Dict.get?_set_of_ne _ _ (by decide), hxs], hall⟩
  · rw [AbsorbsKey, if_neg hkey] at *
    by_cases hsource : kv.1 = "discovery_source"
    · exact ⟨.str source, by rw [hsource, Dict.get?_set_self], nofun⟩
    · obtain ⟨v, hv, hall⟩ := h
      exact ⟨v, by rw [Dict.get?_set_of_ne _ _ hsource, hv], hall⟩

/-- A save adds members of its own. -/
theorem AbsorbsKey.withAsset {d : Dict} {kv : String × Json} (asset : Int × String × List String)
    (h : AbsorbsKey d kv) : AbsorbsKey (withAsset d asset) kv := by
  unfold AbsorbsKey at *
  split
  · rename_i hkey
    rw [if_pos hkey] at h
    obtain ⟨xs, hxs, hall⟩ := h
    exact ⟨xs, get?_withAsset_of_some asset hxs, hall⟩
  · rename_i hkey
    rw [if_neg hkey] at h
    obtain ⟨v, hv, hall⟩ := h
    exact ⟨v, get?_withAsset_of_some asset hv, hall⟩

/-- A value that can be put in a set is written as it is. -/
theorem sortKeys_of_hashKey {v k : Json} (h : hashKey v = .ok k) : v.sortKeys = v := by
  cases v <;> first | rfl | cases h

/-- An entry has its marker after its keys are sorted. -/
theorem portMarker_sortKeys {item : Dict} {marker : Json × Json × Json}
    (h : portMarker item = .ok marker) : portMarker item.sortKeys = .ok marker := by
  have hfield {key : String} {k : Json} (hk : hashKey ((item.get? key).getD .null) = .ok k) :
      hashKey ((item.sortKeys.get? key).getD .null) = .ok k := by
    have hget : (item.sortKeys.get? key).getD .null
        = ((item.get? key).getD .null).sortKeys := by
      rw [Dict.get?_sortKeys]
      cases item.get? key <;> rfl
    rw [hget, sortKeys_of_hashKey hk, hk]
  obtain ⟨address, haddress, h⟩ := bind_eq_ok.mp h
  obtain ⟨port, hport, h⟩ := bind_eq_ok.mp h
  obtain ⟨process, hprocess, h⟩ := bind_eq_ok.mp h
  rw [portMarker, hfield haddress, bind_ok, hfield hport, bind_ok, hfield hprocess, bind_ok]
  exact h

theorem HasMarker.sortKeys {xs : List Json} {item : Dict} (h : HasMarker xs item) :
    HasMarker (xs.map Json.sortKeys) item := by
  obtain ⟨marker, hmarker, item', hmem, hok⟩ := h
  exact ⟨marker, hmarker, item'.sortKeys, List.mem_map.mpr ⟨_, hmem, rfl⟩, portMarker_sortKeys hok⟩

/-- The keys are sorted. -/
theorem AbsorbsKey.sortKeys {d : Dict} {kv : String × Json} (h : AbsorbsKey d kv) :
    AbsorbsKey d.sortKeys kv := by
  unfold AbsorbsKey at *
  split
  · rename_i hkey
    rw [if_pos hkey] at h
    obtain ⟨xs, hxs, hall⟩ := h
    refine ⟨xs.map Json.sortKeys, ?_, fun item hitem => (hall item hitem).sortKeys⟩
    rw [Dict.get?_sortKeys, hxs, Option.map_some, Json.sortKeys, Json.sortKeysList_eq]
  · rename_i hkey
    rw [if_neg hkey] at h
    obtain ⟨v, hv, hall⟩ := h
    refine ⟨v.sortKeys, by rw [Dict.get?_sortKeys, hv, Option.map_some], ?_⟩
    rintro nested value hnested hvalue kw hkw
    cases v with
    | obj kvs =>
      cases hnested
      have hne := hall kvs value rfl hvalue kw hkw
      have hget := Dict.get?_sortKeys kvs kw.1
      rw [Dict.sortKeys] at hget
      rw [hget]
      simpa using hne
    | null | bool _ | int _ | float _ | str _ | arr _ => cases hnested

theorem HashablePorts.sortKeys {d : Dict} (h : HashablePorts d) : HashablePorts d.sortKeys := by
  rintro v hv
  rw [Dict.get?_sortKeys, Option.map_eq_some_iff] at hv
  obtain ⟨u, hu, rfl⟩ := hv
  obtain ⟨xs, rfl, hxs⟩ := h u hu
  refine ⟨_, rfl, ?_⟩
  rw [Json.sortKeysList_eq]
  rintro x hx item rfl
  obtain ⟨y, hy, heq⟩ := List.mem_map.mp hx
  cases y with
  | obj item' =>
    cases heq
    obtain ⟨marker, hmarker⟩ := hxs _ hy item' rfl
    exact ⟨marker, portMarker_sortKeys hmarker⟩
  | null | bool _ | int _ | float _ | str _ | arr _ => cases heq

theorem HashablePorts.of_get? {d d' : Dict} (h : HashablePorts d)
    (hget : d'.get? "listen_ports" = d.get? "listen_ports") : HashablePorts d' :=
  fun v hv => h v (hget ▸ hv)

theorem get?_withAsset_ports (d : Dict) (asset : Int × String × List String) :
    (withAsset d asset).get? "listen_ports" = d.get? "listen_ports" := by
  simp [withAsset, get?_setDefault]

/-! ## §3. Merging again. -/

/-- The loop appends nothing when every marker has been seen. -/
theorem appendPorts_absorbed {items : List Json} (current : List Json)
    {seen : List (Json × Json × Json)}
    (h : ∀ item, .obj item ∈ items → ∃ marker, portMarker item = .ok marker ∧ marker ∈ seen) :
    appendPorts current seen items = .ok current := by
  induction items with
  | nil => rfl
  | cons x items ih =>
    have hrest := ih (fun item hmem => h item (List.mem_cons_of_mem x hmem))
    cases x with
    | obj item =>
      obtain ⟨marker, hmarker, hseen⟩ := h item List.mem_cons_self
      rw [appendPorts, hmarker, bind_ok, if_pos hseen, hrest]
    | null | bool _ | int _ | float _ | str _ | arr _ => exact hrest

theorem mergePorts_absorbed {d : Dict} {value : Json} {xs : List Json} (hports : HashablePorts d)
    (hxs : d.get? "listen_ports" = some (.arr xs))
    (h : ∀ item, .obj item ∈ listOrEmpty value → HasMarker xs item) :
    mergePorts d value = .ok xs := by
  obtain ⟨xs', hlist, hentries, hstored⟩ := hports.current
  cases hstored _ hxs
  obtain ⟨markers, hmarkers, hseen⟩ := portMarkers_of_hashable hentries
  rw [mergePorts, hlist, bind_ok, hmarkers, bind_ok]
  refine appendPorts_absorbed xs (fun item hitem => ?_)
  obtain ⟨marker, hmarker, item', hmem, hok⟩ := h item hitem
  exact ⟨marker, hmarker, (hseen marker).mpr ⟨item', hmem, hok⟩⟩

theorem mergeNested_absorbed {nested value : Dict} (h : ∀ kw ∈ value, nested.get? kw.1 ≠ none) :
    mergeNested nested value = nested := by
  unfold mergeNested
  induction value with
  | nil => rfl
  | cons kw value ih =>
    obtain ⟨hkw, hvalue⟩ := List.forall_mem_cons.mp h
    have hkeep : setDefault nested kw.1 kw.2 = nested :=
      if_pos (Option.isSome_iff_ne_none.mpr hkw)
    rw [List.foldl_cons, hkeep, ih hvalue]

/-- Setting a key to the value it has changes no look-up. -/
theorem get?_set_same {d : Dict} {l : String} {v : Json} (h : d.get? l = some v) (k : String) :
    (d.set l v).get? k = d.get? k := by
  rw [Dict.get?_set]
  split
  · rename_i hk
    rw [hk, h]
  · rfl

theorem mergeKey_absorbed {d : Dict} {kv : String × Json} (hports : HashablePorts d)
    (h : AbsorbsKey d kv) : ∃ d', mergeKey d kv = .ok d' ∧ ∀ k, d'.get? k = d.get? k := by
  unfold mergeKey
  by_cases hkey : kv.1 = "listen_ports"
  · rw [AbsorbsKey, if_pos hkey] at h
    obtain ⟨xs, hxs, hall⟩ := h
    refine ⟨d.set kv.1 (.arr xs), ?_, get?_set_same (hkey ▸ hxs)⟩
    rw [if_pos hkey, mergePorts_absorbed hports hxs hall]
    rfl
  · rw [AbsorbsKey, if_neg hkey] at h
    obtain ⟨w, hw, hall⟩ := h
    rw [if_neg hkey, hw]
    split
    · rename_i hnone
      cases hnone
    · rename_i nested value hsome hvalue
      cases hsome
      rw [mergeNested_absorbed (hall nested value rfl hvalue)]
      exact ⟨_, rfl, get?_set_same hw⟩
    · exact ⟨d, rfl, fun k => rfl⟩

theorem AbsorbsKey.of_get? {d d' : Dict} {kv : String × Json} (hget : ∀ k, d'.get? k = d.get? k)
    (h : AbsorbsKey d kv) : AbsorbsKey d' kv := by
  unfold AbsorbsKey at *
  rw [hget, hget]
  exact h

/-- **Merging what has nothing to add** raises nothing and changes no
look-up. -/
theorem mergeMetadata_absorbed {d incoming : Dict} (hports : HashablePorts d)
    (h : Absorbs d incoming) :
    ∃ d', mergeMetadata d incoming = .ok d' ∧ ∀ k, d'.get? k = d.get? k := by
  unfold mergeMetadata
  induction incoming generalizing d with
  | nil => exact ⟨d, rfl, fun k => rfl⟩
  | cons kv incoming ih =>
    obtain ⟨hkv, hrest⟩ := List.forall_mem_cons.mp h
    obtain ⟨next, hnext, hget⟩ := mergeKey_absorbed hports hkv
    obtain ⟨d', hd', hget'⟩ := ih (hports.of_get? (hget _))
      (fun kw hkw => (hrest kw hkw).of_get? hget)
    refine ⟨d', by rw [List.foldlM_cons, hnext, bind_ok, hd'], fun k => (hget' k).trans (hget k)⟩

/-! ## §4. Fields. -/

theorem preferExisting_again {α : Type} [DecidableEq α] [Inhabited α] (existing incoming : α) :
    preferExisting (preferExisting existing incoming) incoming
      = preferExisting existing incoming := by
  unfold preferExisting
  by_cases he : hasValue existing = true
  · simp [he]
  · by_cases hi : hasValue incoming = true <;> simp [he, hi]

theorem preferExisting_self {α : Type} [DecidableEq α] [Inhabited α] (value : α) :
    preferExisting value value = value := by
  unfold preferExisting
  split <;> rfl

/-- Ports in order, each once, are united with some of them without a change. -/
theorem mergeUniqueInts_of_subset {left right : List Int} (hleft : left.Pairwise (· < ·))
    (h : ∀ port ∈ right, port ∈ left) : mergeUniqueInts left right = left := by
  refine (mergeUniqueInts_sorted left right).eq_of_mem_iff hleft (fun port => ?_)
  rw [mem_mergeUniqueInts]
  exact ⟨fun hport => hport.elim id (h port), Or.inl⟩

/-- A service that differs from another in its metadata and its asset only. -/
structure SameFields (a b : ServiceRecord) : Prop where
  serviceId : a.serviceId = b.serviceId
  name : a.name = b.name
  nodeId : a.nodeId = b.nodeId
  kind : a.kind = b.kind
  runtime : a.runtime = b.runtime
  domains : a.domains = b.domains
  ports : a.ports = b.ports
  deployPath : a.deployPath = b.deployPath
  configPaths : a.configPaths = b.configPaths
  envPaths : a.envPaths = b.envPaths
  dataPaths : a.dataPaths = b.dataPaths
  healthCheckUrl : a.healthCheckUrl = b.healthCheckUrl
  monitorEnabled : a.monitorEnabled = b.monitorEnabled
  docsPath : a.docsPath = b.docsPath
  source : a.source = b.source
  status : a.status = b.status

/-- The fields of a snapshot before the metadata. -/
theorem SameFields.snapshot {a b : ServiceRecord} (h : SameFields a b) :
    serviceSnapshot a = (serviceSnapshot b).dropLast ++ [("metadata", .obj a.metadata)] := by
  simp only [serviceSnapshot, h.serviceId, h.name, h.nodeId, h.kind, h.runtime, h.domains, h.ports,
    h.deployPath, h.configPaths, h.envPaths, h.dataPaths, h.healthCheckUrl, h.monitorEnabled,
    h.docsPath, h.source, h.status]
  rfl

theorem get?_of_mem_nodup {d : Dict} {k : String} {v : Json} (hnodup : (d.map Prod.fst).Nodup)
    (h : (k, v) ∈ d) : d.get? k = some v := by
  induction d with
  | nil => cases h
  | cons kv d ih =>
    rw [List.map_cons, List.nodup_cons] at hnodup
    rw [Dict.get?_cons]
    rcases List.mem_cons.mp h with rfl | h
    · exact if_pos rfl
    · have hne : k ≠ kv.1 := fun e => hnodup.1 (e ▸ List.mem_map.mpr ⟨_, h, rfl⟩)
      rw [if_neg hne, ih hnodup.2 h]

/-- **No difference is reported** between services with the same fields and
metadata that look the same. -/
theorem serviceDiff_eq_nil {before after : ServiceRecord} (h : SameFields after before)
    (hmetadata : ∀ k, after.metadata.get? k = before.metadata.get? k) :
    serviceDiff (some before) after = [] := by
  have hnodup : ((serviceSnapshot before).map Prod.fst).Nodup := by
    have hkeys : (serviceSnapshot before).map Prod.fst
        = (serviceSnapshot { serviceId := "", name := "" }).map Prod.fst := rfl
    rw [hkeys]
    decide
  have hsnapshot : serviceSnapshot before
      = (serviceSnapshot before).dropLast ++ [("metadata", .obj before.metadata)] := rfl
  refine List.filterMap_eq_nil_iff.mpr (fun kv hkv => ?_)
  rw [h.snapshot, List.mem_append] at hkv
  refine if_pos ?_
  rcases hkv with hkv | hkv
  · have hget : (serviceSnapshot before).get? kv.1 = some kv.2 :=
      get?_of_mem_nodup hnodup (List.dropLast_subset _ hkv)
    rw [Option.map_some, Option.getD_some, hget]
    exact Json.Same.refl kv.2
  · cases List.mem_singleton.mp hkv
    have hget : (serviceSnapshot before).get? "metadata" = some (.obj before.metadata) :=
      get?_of_mem_nodup hnodup (hsnapshot ▸ List.mem_append_right _ List.mem_cons_self)
    rw [Option.map_some, Option.getD_some, hget]
    exact Dict.Same.of_get? (fun k => (hmetadata k).symm)

/-! ## §5. Planning again. -/

/-- A service that has nothing more to take from a discovered record. -/
structure Converged (label : String) (discovered service : ServiceRecord) : Prop where
  name : preferExisting service.name discovered.name = service.name
  nodeId : preferExisting service.nodeId discovered.nodeId = service.nodeId
  kind : preferExisting service.kind discovered.kind = service.kind
  runtime : preferExisting service.runtime discovered.runtime = service.runtime
  domains : preferExisting service.domains discovered.domains = service.domains
  ports : mergeUniqueInts service.ports discovered.ports = service.ports
  deployPath : preferExisting service.deployPath discovered.deployPath = service.deployPath
  configPaths : preferExisting service.configPaths discovered.configPaths = service.configPaths
  envPaths : preferExisting service.envPaths discovered.envPaths = service.envPaths
  dataPaths : preferExisting service.dataPaths discovered.dataPaths = service.dataPaths
  healthCheckUrl : preferExisting service.healthCheckUrl discovered.healthCheckUrl
    = service.healthCheckUrl
  monitorEnabled : preferExisting service.monitorEnabled discovered.monitorEnabled
    = service.monitorEnabled
  docsPath : preferExisting service.docsPath discovered.docsPath = service.docsPath
  source : preferExisting service.source discovered.source = service.source
  status : preferExisting service.status discovered.status = service.status
  discoverySource : service.metadata.get? "discovery_source" = some (.str label)
  hashable : HashablePorts service.metadata
  absorbs : Absorbs service.metadata discovered.metadata

theorem HashablePorts.set {d : Dict} (h : HashablePorts d) (source : String) :
    HashablePorts (d.set "discovery_source" (.str source)) :=
  h.of_get? (Dict.get?_set_of_ne d _ (by decide))

/-- The service planned for a stored one is converged. -/
theorem mergedService_converged {source : String} {existing discovered service : ServiceRecord}
    (hports : HashablePorts existing.metadata)
    (h : mergedService source existing discovered = .ok service) :
    Converged source discovered service := by
  obtain ⟨metadata, hmerge, h⟩ := bind_eq_ok.mp h
  cases pure_eq_ok.mp h
  constructor
  case ports =>
    exact mergeUniqueInts_of_subset (mergeUniqueInts_sorted _ _)
      (fun port hport => mem_mergeUniqueInts.mpr (Or.inr hport))
  case discoverySource => exact Dict.get?_set_self metadata _ _
  case hashable => exact (mergeMetadata_keeps hports hmerge).1.set source
  case absorbs => exact fun kv hkv => (mergeMetadata_absorbs hports hmerge kv hkv).set source
  all_goals exact preferExisting_again _ _

/-- What the parsers promise of a record. -/
structure WellDiscovered (record : ServiceRecord) : Prop where
  sorted : record.ports.Pairwise (· < ·)
  keys : (record.metadata.map Prod.fst).Nodup
  hashable : HashablePorts record.metadata

/-- Metadata have nothing to add to themselves. -/
theorem WellDiscovered.absorbs {record : ServiceRecord} (h : WellDiscovered record) :
    Absorbs record.metadata record.metadata := by
  rintro ⟨k, v⟩ hkv
  have hget := get?_of_mem_nodup h.keys hkv
  unfold AbsorbsKey
  split
  · rename_i hkey
    obtain ⟨xs, rfl, hxs⟩ := h.hashable v (hkey ▸ hget)
    refine ⟨xs, hkey ▸ hget, fun item hitem => ?_⟩
    obtain ⟨marker, hmarker⟩ := hxs _ hitem item rfl
    exact ⟨marker, hmarker, item, hitem, hmarker⟩
  · refine ⟨v, hget, ?_⟩
    rintro nested value rfl hvalue kw hkw
    cases hvalue
    exact get?_ne_none_of_mem hkw

/-- And so is the service planned for one that is not stored. -/
theorem createdService_converged (source : String) {discovered : ServiceRecord}
    (h : WellDiscovered discovered) : Converged source discovered (createdService source discovered) := by
  constructor
  case ports => exact mergeUniqueInts_of_subset h.sorted (fun port hport => hport)
  case discoverySource => exact Dict.get?_set_self discovered.metadata _ _
  case hashable => exact h.hashable.set source
  case absorbs => exact fun kv hkv => (h.absorbs kv hkv).set source
  all_goals exact preferExisting_self _

/-- A converged service is saved as a converged row. -/
theorem Converged.row {source : String} {discovered service : ServiceRecord}
    (h : Converged source discovered service) (now : Timestamp) (existing existing' : Option ServiceRecord) :
    Converged source discovered (serviceRow existing (savedService now existing' service)) where
  __ := h
  discoverySource := by
    have hsaved := get?_withAsset_of_some (classifyServiceAsset service) h.discoverySource
    refine (Dict.get?_sortKeys (withAsset service.metadata _) _).trans ?_
    rw [hsaved]
    rfl
  hashable := (h.hashable.of_get? (get?_withAsset_ports service.metadata _)).sortKeys
  absorbs := fun kv hkv => ((h.absorbs kv hkv).withAsset _).sortKeys

/-- **A converged service is planned as it is.** -/
theorem Converged.replanned {source : String} {discovered service : ServiceRecord}
    (h : Converged source discovered service) :
    ∃ service', mergedService source service discovered = .ok service'
      ∧ serviceDiff (some service) service' = [] := by
  obtain ⟨metadata, hmerge, hget⟩ := mergeMetadata_absorbed h.hashable h.absorbs
  refine ⟨_, by rw [mergedService, hmerge]; rfl, serviceDiff_eq_nil ?_ (fun k => ?_)⟩
  · exact ⟨rfl, h.name, h.nodeId, h.kind, h.runtime, h.domains, h.ports, h.deployPath,
      h.configPaths, h.envPaths, h.dataPaths, h.healthCheckUrl, h.monitorEnabled, h.docsPath,
      h.source, h.status⟩
  · exact (get?_set_same ((hget _).trans h.discoverySource) k).trans (hget k)

/-! ## §6. What the parsers build. -/

theorem WellDiscovered.asDiscovered {record : ServiceRecord} (h : WellDiscovered record)
    (nodeId source : String) : WellDiscovered (asDiscovered nodeId source record) :=
  ⟨h.sorted, h.keys, h.hashable⟩

/-- Metadata with one key that is not `listen_ports`. -/
theorem hashablePorts_of_absent {d : Dict} (h : d.get? "listen_ports" = none) : HashablePorts d :=
  fun _ hv => absurd (hv.symm.trans h) nofun

theorem keys_set_nodup {d : Dict} (h : (d.map Prod.fst).Nodup) (k : String) (v : Json) :
    ((d.set k v).map Prod.fst).Nodup := by
  unfold Dict.set
  split
  · have hkeys : (d.map fun kv => if kv.1 = k then (k, v) else kv).map Prod.fst
        = d.map Prod.fst := by
      rw [List.map_map]
      refine List.map_congr_left (fun kv _ => ?_)
      by_cases hk : kv.1 = k <;> simp [hk]
    rw [hkeys]
    exact h
  · rename_i hnone
    rw [List.map_append, List.nodup_append]
    refine ⟨h, by simp, ?_⟩
    rintro a ha b hb rfl
    obtain ⟨kv, hkv, rfl⟩ := List.mem_map.mp ha
    cases List.mem_singleton.mp hb
    exact get?_ne_none_of_mem hkv (by simpa using hnone)

theorem mergeMetadata_nodup {existing incoming merged : Dict} (h : (existing.map Prod.fst).Nodup)
    (hmerge : mergeMetadata existing incoming = .ok merged) : (merged.map Prod.fst).Nodup := by
  refine foldlM_invariant (fun d : Dict => (d.map Prod.fst).Nodup) ?_ h hmerge
  rintro kv - d d' hd hok
  rcases mergeKey_cases hok with ⟨-, ys, -, rfl⟩ | ⟨-, -, rfl⟩ | ⟨-, nested, value, -, -, rfl⟩
    | ⟨-, rfl, -⟩
  · exact keys_set_nodup hd _ _
  · exact keys_set_nodup hd _ _
  · exact keys_set_nodup hd _ _
  · exact hd

/-- Every row is a record as the parsers build them. -/
def AllWell (records : ServiceTable) : Prop := ∀ record ∈ records.rows, WellDiscovered record

theorem allWell_empty : AllWell .empty := List.forall_mem_nil _

theorem AllWell.upsert {records : ServiceTable} (h : AllWell records) {record : ServiceRecord}
    (hrecord : WellDiscovered record) : AllWell (records.upsert record) := by
  rintro r hr
  rcases Table.mem_upsert.mp hr with rfl | ⟨hr, -⟩
  · exact hrecord
  · exact h r hr

theorem addOrMerge_well {records records' : ServiceTable} {record : ServiceRecord}
    (h : AllWell records) (hrecord : WellDiscovered record)
    (hok : addOrMerge records record = .ok records') : AllWell records' := by
  unfold addOrMerge at hok
  split at hok
  · cases hok
    exact h.upsert hrecord
  · rename_i existing hexisting
    have hwell := h existing (Table.mem_of_find? hexisting)
    obtain ⟨metadata, hmerge, hok⟩ := bind_eq_ok.mp hok
    cases pure_eq_ok.mp hok
    exact h.upsert ⟨mergeUniqueInts_sorted _ _, mergeMetadata_nodup hwell.keys hmerge,
      (mergeMetadata_keeps hwell.hashable hmerge).1⟩

theorem parseSystemd_well {output nodeId : String} {record : ServiceRecord}
    (h : record ∈ parseSystemd output nodeId) : WellDiscovered record := by
  obtain ⟨line, -, hline⟩ := List.mem_filterMap.mp h
  unfold parseSystemdLine at hline
  dsimp only at hline
  split at hline
  · split at hline
    · cases hline
      exact ⟨.nil, List.nodup_singleton _, hashablePorts_of_absent rfl⟩
    · cases hline
  · cases hline

theorem extractDockerPorts_sorted {value : String} {ports : List Int}
    (h : extractDockerPorts value = .ok ports) : ports.Pairwise (· < ·) := by
  obtain ⟨found, -, h⟩ := bind_eq_ok.mp h
  cases pure_eq_ok.mp h
  exact mergeUniqueInts_sorted _ _

theorem parseDockerLine_well {floatOf : List Char → PyFloat} {nodeId line : String}
    {record : ServiceRecord} (h : parseDockerLine floatOf nodeId line = .ok (some record)) :
    WellDiscovered record := by
  unfold parseDockerLine at h
  dsimp only at h
  split at h
  · cases h
  · split at h
    · cases h
    · cases h
    · obtain ⟨name, -, h⟩ := bind_eq_ok.mp h
      obtain ⟨image, -, h⟩ := bind_eq_ok.mp h
      obtain ⟨portsText, -, h⟩ := bind_eq_ok.mp h
      obtain ⟨ports, hports, h⟩ := bind_eq_ok.mp h
      cases pure_eq_ok.mp h
      exact ⟨extractDockerPorts_sorted hports, List.nodup_singleton _, hashablePorts_of_absent rfl⟩
    · cases h

theorem parseDocker_well {floatOf : List Char → PyFloat} {output nodeId : String}
    {records : List ServiceRecord} (h : parseDocker floatOf output nodeId = .ok records) :
    ∀ record ∈ records, WellDiscovered record := by
  obtain ⟨found, hfound, h⟩ := bind_eq_ok.mp h
  cases pure_eq_ok.mp h
  rintro record hrecord
  obtain ⟨entry, hentry, rfl⟩ := List.mem_filterMap.mp hrecord
  obtain ⟨line, -, hline⟩ := exists_left (mapM_eq_ok.mp hfound) hentry
  exact parseDockerLine_well hline

theorem parsePorts_well {output nodeId : String} {record : ServiceRecord}
    (h : record ∈ parsePorts output nodeId) : WellDiscovered record := by
  obtain ⟨line, -, hline⟩ := List.mem_filterMap.mp h
  unfold parsePortsLine at hline
  dsimp only at hline
  split at hline
  · cases hline
  · split at hline
    · cases hline
    · split at hline
      · cases hline
      · cases hline
        refine ⟨List.pairwise_singleton _ _, List.nodup_singleton _, ?_⟩
        rintro v hv
        cases hv
        refine ⟨_, rfl, fun x hx => ?_⟩
        cases List.mem_singleton.mp hx
        rintro item hitem
        cases hitem
        exact ⟨_, rfl⟩

/-- The records of a reader of compose files, so far. -/
def WellState (s : ComposeState) : Prop := ∀ record ∈ s.records, WellDiscovered record

theorem flush_well {nodeId : String} {s : ComposeState} (h : WellState s) :
    WellState (s.flush nodeId) := by
  unfold ComposeState.flush
  split
  · exact h
  · refine List.forall_mem_append.mpr ⟨h, List.forall_mem_singleton.mpr ?_⟩
    refine ⟨.nil, ?_, hashablePorts_of_absent ?_⟩
    · have hkeys : ["compose"].Nodup ∧ ["compose", "health_check"].Nodup := by decide
      dsimp only
      split
      · exact hkeys.2
      · exact hkeys.1
    · dsimp only
      split <;> rfl

theorem WellState.of_records {s s' : ComposeState} (h : WellState s)
    (hrecords : s'.records = s.records) : WellState s' :=
  fun record hmem => h record (hrecords ▸ hmem)

/-- A line closes the service before it, or leaves the records alone. -/
theorem readLine_well {nodeId : String} {s : ComposeState} (h : WellState s) (line : String) :
    WellState (s.readLine nodeId line) := by
  have hclosed : WellState ((s.flush nodeId).enter false false false) :=
    (flush_well h).of_records rfl
  unfold ComposeState.readLine
  extract_lets line stripped closed hostPath
  refine iteInduction (motive := WellState) (fun _ => h) (fun _ => ?_)
  refine iteInduction (motive := WellState) (fun _ => hclosed.of_records rfl) (fun _ => ?_)
  iterate 6
    refine iteInduction (motive := WellState) (fun _ => h.of_records rfl) (fun _ => ?_)
  refine iteInduction (motive := WellState) (fun _ => ?_) (fun _ => ?_)
  · exact iteInduction (motive := WellState) (fun _ => h.of_records rfl) (fun _ => h.of_records rfl)
  · refine iteInduction (motive := WellState) (fun _ => ?_) (fun _ => h)
    split
    · exact h.of_records rfl
    · exact h

theorem parseCompose_well {output nodeId : String} {record : ServiceRecord}
    (h : record ∈ parseCompose output nodeId) : WellDiscovered record := by
  have hstate := List.foldlRecOn (motive := WellState) (Text.splitLines output)
    (ComposeState.readLine nodeId) (b := {}) nofun (fun s hs line _ => readLine_well hs line)
  exact flush_well hstate record h

theorem bind_well {records records' : ServiceTable} {target : ServiceRecord} {b : Binding}
    (h : AllWell records) (htarget : WellDiscovered target)
    (hok : bind_ records target b = .ok records') : AllWell records' := by
  obtain ⟨metadata, hmerge, hok⟩ := bind_eq_ok.mp hok
  obtain ⟨metadata', hhealth, hok⟩ := bind_eq_ok.mp hok
  cases pure_eq_ok.mp hok
  have hkeys := mergeMetadata_nodup htarget.keys hmerge
  have hports := (mergeMetadata_keeps htarget.hashable hmerge).1
  unfold withHealthCheck at hhealth
  split at hhealth
  · exact h.upsert ⟨htarget.sorted, mergeMetadata_nodup hkeys hhealth,
      (mergeMetadata_keeps hports hhealth).1⟩
  · cases hhealth
    exact h.upsert ⟨htarget.sorted, hkeys, hports⟩

theorem applyProxyEnrichment_well {records records' : ServiceTable} {bindings : List Binding}
    (h : AllWell records) (hok : applyProxyEnrichment records bindings = .ok records') :
    AllWell records' := by
  refine foldlM_invariant AllWell ?_ h hok
  rintro b - enriched enriched' henriched hstep
  split at hstep
  · cases hstep
    exact henriched
  · rename_i target htarget
    exact bind_well henriched (h target (List.mem_of_find?_eq_some htarget)) hstep

/-- **What discovery returns**: well-formed records of different services. -/
theorem discoverServicesFromText_well {floatOf : List Char → PyFloat} {nodeId : String}
    {output : CommandOutput} {records : List ServiceRecord}
    (h : discoverServicesFromText floatOf nodeId output = .ok records) :
    (∀ record ∈ records, WellDiscovered record)
      ∧ (records.map ServiceRecord.serviceId).Nodup := by
  obtain ⟨docker, hdocker, h⟩ := bind_eq_ok.mp h
  obtain ⟨merged, hmerged, h⟩ := bind_eq_ok.mp h
  obtain ⟨bindings, -, h⟩ := bind_eq_ok.mp h
  obtain ⟨enriched, henriched, h⟩ := bind_eq_ok.mp h
  cases pure_eq_ok.mp h
  have hmergedWell : AllWell merged := by
    refine foldlM_invariant AllWell (fun record hrecord records records' hwell hok => ?_)
      allWell_empty hmerged
    refine addOrMerge_well hwell ?_ hok
    simp only [List.mem_append] at hrecord
    rcases hrecord with ((hrecord | hrecord) | hrecord) | hrecord
    · exact parseSystemd_well hrecord
    · exact parseDocker_well hdocker record hrecord
    · exact parsePorts_well hrecord
    · exact parseCompose_well hrecord
  have hwell := applyProxyEnrichment_well hmergedWell henriched
  have hperm := List.perm_insertionSort (fun a b : ServiceRecord => a.serviceId ≤ b.serviceId)
    enriched.rows
  exact ⟨fun record hrecord => hwell record (hperm.mem_iff.mp hrecord),
    (hperm.map _).nodup_iff.mpr enriched.nodup⟩

/-! ## §7. Convergence. -/

/-- A record with markers is planned without an error, as a converged service. -/
theorem planService_converged {services : ServiceTable} (nodeId source : String)
    {record : ServiceRecord} (hrecord : WellDiscovered record)
    (hports : ∀ old, services.loadServiceRecord record.serviceId = some old →
      HashablePorts old.metadata) :
    ∃ entry, planService services nodeId source record = .ok entry
      ∧ entry.1.serviceId = record.serviceId
      ∧ Converged source (asDiscovered nodeId source record) entry.1 := by
  cases hplan : planService services nodeId source record with
  | error e =>
    obtain ⟨xs, item, hkey, hitem, hraise⟩ := planService_error hports hplan
    obtain ⟨ys, heq, hys⟩ := hrecord.hashable _ (get?_of_mem_nodup hrecord.keys hkey)
    cases heq
    obtain ⟨marker, hmarker⟩ := hys _ hitem item rfl
    exact absurd (hraise.symm.trans hmarker) nofun
  | ok entry =>
    refine ⟨entry, rfl, planService_serviceId hplan, ?_⟩
    unfold planService at hplan
    dsimp only at hplan
    split at hplan
    · rename_i existing hexisting
      obtain ⟨service, hservice, hplan⟩ := bind_eq_ok.mp hplan
      cases pure_eq_ok.mp hplan
      exact mergedService_converged (hports existing hexisting) hservice
    · cases pure_eq_ok.mp hplan
      exact createdService_converged source (hrecord.asDiscovered nodeId source)

/-- A record whose row is converged is planned as unchanged. -/
theorem planService_unchanged {services : ServiceTable} {nodeId source : String}
    {record row : ServiceRecord} (hrow : services.loadServiceRecord record.serviceId = some row)
    (h : Converged source (asDiscovered nodeId source record) row) :
    ∃ entry, planService services nodeId source record = .ok entry
      ∧ entry.2.change = .unchanged ∧ entry.2.diff = [] := by
  obtain ⟨service, hservice, hdiff⟩ := h.replanned
  have hload : services.loadServiceRecord (asDiscovered nodeId source record).serviceId = some row :=
    hrow
  refine ⟨(service, serviceChange (some row) service), ?_, ?_, hdiff⟩
  · simp only [planService, hload, hservice, bind_ok]
    rfl
  · simp only [serviceChange, hdiff, ne_eq, not_true, if_false]

/-- **Discovery converges.**  The records discovered in any six texts are
applied without an error, and planning them again reports every one of them
as unchanged. -/
theorem discovery_converges (floatOf : List Char → PyFloat) (clock : Nat → Timestamp)
    (discoveredOn nodeId source : String) (output : CommandOutput) (records : List ServiceRecord)
    (store : ServiceStore)
    (hrecords : discoverServicesFromText floatOf discoveredOn output = .ok records)
    (hscalar : ∀ old ∈ store.services.rows, ScalarPorts old.metadata) :
    ∃ saved store', applyDiscoveredServices clock nodeId source records store = (.ok saved, store')
      ∧ ∃ plan, planDiscoveredServices store'.services nodeId source records = .ok plan
        ∧ plan.length = records.length
        ∧ ∀ entry ∈ plan, entry.2.change = .unchanged ∧ entry.2.diff = [] := by
  obtain ⟨hwell, hnodup⟩ := discoverServicesFromText_well hrecords
  have hplanned : ∀ record ∈ records, ∃ entry,
      planService store.services nodeId source record = .ok entry
        ∧ entry.1.serviceId = record.serviceId
        ∧ Converged source (asDiscovered nodeId source record) entry.1 :=
    fun record hmem => planService_converged nodeId source (hwell record hmem)
      (fun old hold => (hscalar old (Table.mem_of_find? hold)).hashable)
  obtain ⟨plan, hplan⟩ := mapM_total (fun record hmem => (hplanned record hmem).imp fun _ h => h.1)
  have hpairs := mapM_eq_ok.mp hplan
  refine ⟨_, _, by rw [applyDiscoveredServices, planDiscoveredServices, hplan], ?_⟩
  have hagain : ∀ record ∈ records, ∃ entry, planService
      (saveServices clock 0 (plan.map Prod.fst) store.services).2 nodeId source record = .ok entry
        ∧ entry.2.change = .unchanged ∧ entry.2.diff = [] := by
    rintro record hmem
    rcases find?_saveServices clock (plan.map Prod.fst) 0 store.services record.serviceId with
      ⟨hne, -⟩ | ⟨service, hservice, hid, now, existing, hrow⟩
    · obtain ⟨entry, hentry, hok⟩ := exists_right hpairs hmem
      obtain ⟨entry', hok', hkey, -⟩ := hplanned record hmem
      cases hok.symm.trans hok'
      exact absurd hkey (hne entry.1 (List.mem_map.mpr ⟨entry, hentry, rfl⟩))
    · obtain ⟨entry, hentry, rfl⟩ := List.mem_map.mp hservice
      obtain ⟨record', hmem', hok⟩ := exists_left hpairs hentry
      obtain ⟨entry', hok', hkey, hconverged⟩ := hplanned record' hmem'
      cases hok.symm.trans hok'
      have hsame : record' = record :=
        List.inj_on_of_nodup_map hnodup hmem' hmem (hkey.symm.trans hid)
      subst hsame
      exact planService_unchanged hrow (hconverged.row now _ _)
  obtain ⟨plan', hplan'⟩ := mapM_total (fun record hmem => (hagain record hmem).imp fun _ h => h.1)
  refine ⟨plan', hplan', (mapM_eq_ok.mp hplan').length_eq.symm, fun entry hentry => ?_⟩
  obtain ⟨record, hmem, hok⟩ := exists_left (mapM_eq_ok.mp hplan') hentry
  obtain ⟨entry', hok', hunchanged⟩ := hagain record hmem
  cases hok.symm.trans hok'
  exact hunchanged

/-- A proxy and the port it listens on, beside a blog that is stored. -/
def listeningProxy : CommandOutput where
  systemd := "nginx.service loaded active running web server"
  docker := ""
  ports := "LISTEN 0 511 0.0.0.0:80 0.0.0.0:* users:((\"nginx\",pid=1))"
  compose := "services:\n  blog:\n    image: blog:1"
  caddy := ""
  nginx := ""

theorem listeningProxy_converges : ∃ records saved store' plan,
    discoverServicesFromText (fun _ => ⟨.nan, "nan"⟩) "node-a" listeningProxy = .ok records
    ∧ applyDiscoveredServices 0 "node-a" "discovery" records curatedStore = (.ok saved, store')
    ∧ planDiscoveredServices store'.services "node-a" "discovery" records = .ok plan
    ∧ plan.length = 2 ∧ ∀ entry ∈ plan, entry.2.change = .unchanged ∧ entry.2.diff = [] := by
  have hlength : (discoverServicesFromText (fun _ => ⟨.nan, "nan"⟩) "node-a"
      listeningProxy).toOption.map List.length = some 2 := by decide +kernel
  have hscalar : ∀ old ∈ curatedStore.services.rows, ScalarPorts old.metadata := by
    rintro old hold v hv
    cases List.mem_singleton.mp hold
    cases hv
    refine ⟨_, rfl, fun x hx => ?_⟩
    cases List.mem_singleton.mp hx
    exact ⟨_, rfl, by decide⟩
  cases hrecords : discoverServicesFromText (fun _ => ⟨.nan, "nan"⟩) "node-a" listeningProxy with
  | error e =>
    rw [hrecords] at hlength
    cases hlength
  | ok records =>
    rw [hrecords] at hlength
    obtain ⟨saved, store', happly, plan, hplan, hcount, hall⟩ := discovery_converges _ 0 "node-a"
      "node-a" "discovery" listeningProxy records curatedStore hrecords hscalar
    exact ⟨records, saved, store', plan, rfl, happly, hplan,
      hcount.trans (Option.some.inj hlength), hall⟩

end Hmn
