/-
  Hmn.Services.Curated — discovery never overwrites what was curated.

  Metadata only grows: one turn of the merge keeps every member
  (`mergeKey_keeps`), and so does the loop (`mergeMetadata_keeps`).  The
  fields follow from `preferExisting`, the ports from the union, and the save
  adds its own keys behind the others.

  Main result: `discovery_keeps_curated`.
-/
import Hmn.Framework.Fallible
import Hmn.Services.Merge
import Mathlib.Data.List.Dedup

namespace Hmn

open Framework Framework.Fallible

/-! ## §1. Entries of `listen_ports`. -/

/-- An entry whose marker can be put in a set. -/
def HashableEntry (x : Json) : Prop := ∀ item, x = .obj item → ∃ marker, portMarker item = .ok marker

/-- Metadata whose `listen_ports`, when present, are a list of entries with
markers. -/
def HashablePorts (d : Dict) : Prop :=
  ∀ v, d.get? "listen_ports" = some v → ∃ xs, v = .arr xs ∧ ∀ x ∈ xs, HashableEntry x

/-- Metadata whose `listen_ports`, when present, are a list of objects with
scalar fields. -/
def ScalarPorts (d : Dict) : Prop :=
  ∀ v, d.get? "listen_ports" = some v →
    ∃ xs, v = .arr xs ∧ ∀ x ∈ xs, ∃ item, x = .obj item ∧ ∀ kv ∈ item, kv.2.scalar = true

theorem hashKey_of_scalar {v : Json} (h : v.scalar = true) : hashKey v = .ok v.canon := by
  cases v <;> first | rfl | cases h

theorem get?_mem {d : Dict} {k : String} {v : Json} (h : d.get? k = some v) : (k, v) ∈ d := by
  induction d with
  | nil => cases h
  | cons kv d ih =>
    rw [Dict.get?_cons] at h
    split at h
    · rename_i hk
      cases h
      exact hk ▸ List.mem_cons_self
    · exact List.mem_cons_of_mem kv (ih h)

/-- A field of an entry with scalar fields, or `None`, is a scalar. -/
theorem scalar_getD {item : Dict} (h : ∀ kv ∈ item, kv.2.scalar = true) (k : String) :
    ((item.get? k).getD .null).scalar = true := by
  cases hk : item.get? k with
  | none => rfl
  | some v => exact h _ (get?_mem hk)

theorem ScalarPorts.hashable {d : Dict} (h : ScalarPorts d) : HashablePorts d := by
  intro v hv
  obtain ⟨xs, rfl, hxs⟩ := h v hv
  refine ⟨xs, rfl, fun x hx item hitem => ?_⟩
  obtain ⟨item', hobj, hscalar⟩ := hxs x hx
  cases hobj.symm.trans hitem
  have hfield (k : String) : hashKey ((Dict.get? item k).getD .null)
      = .ok ((Dict.get? item k).getD .null).canon := hashKey_of_scalar (scalar_getD hscalar k)
  exact ⟨_, by rw [portMarker, hfield, hfield, hfield]; rfl⟩

/-- The markers seen before the loop are those of the entries. -/
theorem portMarkers_of_hashable {xs : List Json} (h : ∀ x ∈ xs, HashableEntry x) :
    ∃ markers, portMarkers xs = .ok markers
      ∧ ∀ marker, marker ∈ markers ↔ ∃ item, .obj item ∈ xs ∧ portMarker item = .ok marker := by
  induction xs with
  | nil => exact ⟨[], rfl, fun marker => by simp⟩
  | cons x xs ih =>
    obtain ⟨hx, hxs⟩ := List.forall_mem_cons.mp h
    obtain ⟨markers, hmarkers, hall⟩ := ih hxs
    cases x with
    | obj item =>
      obtain ⟨marker, hmarker⟩ := hx item rfl
      refine ⟨marker :: markers, by rw [portMarkers, hmarker, hmarkers]; rfl, fun m => ?_⟩
      rw [List.mem_cons, hall]
      constructor
      · rintro (rfl | ⟨item', hmem, hok⟩)
        · exact ⟨item, List.mem_cons_self, hmarker⟩
        · exact ⟨item', List.mem_cons_of_mem _ hmem, hok⟩
      · rintro ⟨item', hmem, hok⟩
        rcases List.mem_cons.mp hmem with heq | hmem
        · cases heq
          exact Or.inl (Except.ok.inj (hok.symm.trans hmarker))
        · exact Or.inr ⟨item', hmem, hok⟩
    | null | bool _ | int _ | float _ | str _ | arr _ =>
      refine ⟨markers, hmarkers, fun m => (hall m).trans ?_⟩
      simp

/-- **What the loop over the discovered entries appends**: entries with
markers, so that afterwards every discovered entry is accounted for. -/
theorem appendPorts_ok {items current ys : List Json} {seen : List (Json × Json × Json)}
    (h : appendPorts current seen items = .ok ys) :
    ∃ new, ys = current ++ new ∧ (∀ x ∈ new, HashableEntry x)
      ∧ ∀ item, .obj item ∈ items → ∃ marker, portMarker item = .ok marker
        ∧ (marker ∈ seen ∨ ∃ item', .obj item' ∈ new ∧ portMarker item' = .ok marker) := by
  induction items generalizing current seen with
  | nil =>
    cases h
    exact ⟨[], (List.append_nil _).symm, nofun, nofun⟩
  | cons x items ih =>
    cases x with
    | obj item =>
      rw [appendPorts] at h
      obtain ⟨marker, hmarker, h⟩ := bind_eq_ok.mp h
      by_cases hseen : marker ∈ seen
      · rw [if_pos hseen] at h
        obtain ⟨new, rfl, hnew, hall⟩ := ih h
        refine ⟨new, rfl, hnew, fun item' hmem => ?_⟩
        rcases List.mem_cons.mp hmem with heq | hmem
        · cases heq
          exact ⟨marker, hmarker, Or.inl hseen⟩
        · exact hall item' hmem
      · rw [if_neg hseen] at h
        obtain ⟨new, rfl, hnew, hall⟩ := ih h
        refine ⟨.obj item :: new, by simp, ?_, fun item' hmem => ?_⟩
        · refine List.forall_mem_cons.mpr ⟨fun item' heq => ?_, hnew⟩
          cases heq
          exact ⟨marker, hmarker⟩
        · rcases List.mem_cons.mp hmem with heq | hmem
          · cases heq
            exact ⟨marker, hmarker, Or.inr ⟨item, List.mem_cons_self, hmarker⟩⟩
          · obtain ⟨marker', hok, hin⟩ := hall item' hmem
            refine ⟨marker', hok, ?_⟩
            rcases hin with hin | ⟨item₂, hitem₂, hok₂⟩
            · rcases List.mem_cons.mp hin with rfl | hin
              · exact Or.inr ⟨item, List.mem_cons_self, hmarker⟩
              · exact Or.inl hin
            · exact Or.inr ⟨item₂, List.mem_cons_of_mem _ hitem₂, hok₂⟩
    | null | bool _ | int _ | float _ | str _ | arr _ =>
      obtain ⟨new, rfl, hnew, hall⟩ := ih h
      exact ⟨new, rfl, hnew, fun item' hmem => hall item' (by simpa using hmem)⟩

/-- The loop raises at an entry that has no marker. -/
theorem appendPorts_error {items current : List Json} {seen : List (Json × Json × Json)}
    {e : PyError} (h : appendPorts current seen items = .error e) :
    ∃ item, .obj item ∈ items ∧ portMarker item = .error e := by
  induction items generalizing current seen with
  | nil => cases h
  | cons x items ih =>
    cases x with
    | obj item =>
      rw [appendPorts] at h
      rcases bind_eq_error.mp h with hitem | ⟨marker, -, h⟩
      · exact ⟨item, List.mem_cons_self, hitem⟩
      · obtain ⟨item', hmem, hraise⟩ : ∃ item', .obj item' ∈ items ∧ portMarker item' = .error e := by
          split at h
          · exact ih h
          · exact ih h
        exact ⟨item', List.mem_cons_of_mem _ hmem, hraise⟩
    | null | bool _ | int _ | float _ | str _ | arr _ =>
      obtain ⟨item', hmem, hraise⟩ := ih h
      exact ⟨item', List.mem_cons_of_mem _ hmem, hraise⟩

/-- What `listen_ports` hold before a merge: no entries when they are absent. -/
theorem HashablePorts.current {d : Dict} (h : HashablePorts d) :
    ∃ xs, pyList ((d.get? "listen_ports").getD (.arr [])) = .ok xs
      ∧ (∀ x ∈ xs, HashableEntry x)
      ∧ ∀ v, d.get? "listen_ports" = some v → v = .arr xs := by
  cases hv : d.get? "listen_ports" with
  | none => exact ⟨[], rfl, nofun, nofun⟩
  | some v =>
    obtain ⟨xs, rfl, hxs⟩ := h v hv
    exact ⟨xs, rfl, hxs, fun w hw => (Option.some.inj hw).symm⟩

/-- The entry `item` is among `xs`, under its marker. -/
def HasMarker (xs : List Json) (item : Dict) : Prop :=
  ∃ marker, portMarker item = .ok marker
    ∧ ∃ item', .obj item' ∈ xs ∧ portMarker item' = .ok marker

/-- **The entries after a merge**: the stored ones, then new ones, and every
discovered one is among them. -/
theorem mergePorts_ok {merged : Dict} {value : Json} {ys : List Json} (hports : HashablePorts merged)
    (h : mergePorts merged value = .ok ys) :
    (∀ v, merged.get? "listen_ports" = some v → ∃ xs, v = .arr xs ∧ xs <+: ys)
      ∧ (∀ y ∈ ys, HashableEntry y) ∧ ∀ item, .obj item ∈ listOrEmpty value → HasMarker ys item := by
  obtain ⟨xs, hlist, hxs, hstored⟩ := hports.current
  obtain ⟨markers, hmarkers, hseen⟩ := portMarkers_of_hashable hxs
  rw [mergePorts, hlist, bind_ok, hmarkers, bind_ok] at h
  obtain ⟨new, rfl, hnew, hall⟩ := appendPorts_ok h
  refine ⟨fun v hv => ⟨xs, hstored v hv, List.prefix_append xs new⟩, ?_, fun item hitem => ?_⟩
  · exact List.forall_mem_append.mpr ⟨hxs, hnew⟩
  · obtain ⟨marker, hmarker, hin | ⟨item', hmem, hok⟩⟩ := hall item hitem
    · obtain ⟨item', hmem, hok⟩ := (hseen marker).mp hin
      exact ⟨marker, hmarker, item', List.mem_append_left new hmem, hok⟩
    · exact ⟨marker, hmarker, item', List.mem_append_right xs hmem, hok⟩

theorem mergePorts_error {merged : Dict} {value : Json} {e : PyError} (hports : HashablePorts merged)
    (h : mergePorts merged value = .error e) :
    ∃ item, .obj item ∈ listOrEmpty value ∧ portMarker item = .error e := by
  obtain ⟨xs, hlist, hxs, -⟩ := hports.current
  obtain ⟨markers, hmarkers, -⟩ := portMarkers_of_hashable hxs
  rw [mergePorts, hlist, bind_ok, hmarkers, bind_ok] at h
  exact appendPorts_error h

/-! ## §2. Metadata. -/

/-- Every entry is kept, in order. -/
def KeepsEntries (v w : Json) : Prop := ∃ xs ys, v = .arr xs ∧ w = .arr ys ∧ xs <+: ys

/-- Two objects, the second with every member of the first. -/
def KeepsMembers (v w : Json) : Prop :=
  ∃ kvs kws : Dict, v = .obj kvs ∧ w = .obj kws ∧ ∀ k x, kvs.get? k = some x → kws.get? k = some x

/-- What the value `v` under `key` may become when `incoming` is merged in. -/
def KeepsValue (incoming : Dict) (key : String) (v w : Json) : Prop :=
  if key = "listen_ports" then KeepsEntries v w
  else w = v ∨ ((∃ value, (key, .obj value) ∈ incoming) ∧ KeepsMembers v w)

theorem get?_setDefault_of_some {d : Dict} {k : String} {v : Json} (l : String) (x : Json)
    (h : d.get? k = some v) : (setDefault d l x).get? k = some v := by
  rw [get?_setDefault, if_neg, h]
  rintro ⟨rfl, hnone⟩
  rw [hnone] at h
  cases h

theorem get?_mergeNested_of_some {nested : Dict} (value : Dict) {k : String} {v : Json}
    (h : nested.get? k = some v) : (mergeNested nested value).get? k = some v := by
  unfold mergeNested
  induction value generalizing nested with
  | nil => exact h
  | cons kv value ih => exact ih (get?_setDefault_of_some kv.1 kv.2 h)

/-- **What one turn of the merge does.** -/
theorem mergeKey_cases {merged merged' : Dict} {kv : String × Json}
    (h : mergeKey merged kv = .ok merged') :
    (kv.1 = "listen_ports" ∧ ∃ ys, mergePorts merged kv.2 = .ok ys
        ∧ merged' = merged.set "listen_ports" (.arr ys))
    ∨ (kv.1 ≠ "listen_ports" ∧ merged.get? kv.1 = none ∧ merged' = merged.set kv.1 kv.2)
    ∨ (kv.1 ≠ "listen_ports" ∧ ∃ nested value, merged.get? kv.1 = some (.obj nested)
        ∧ kv.2 = .obj value ∧ merged' = merged.set kv.1 (.obj (mergeNested nested value)))
    ∨ (kv.1 ≠ "listen_ports" ∧ merged' = merged ∧ ∃ v, merged.get? kv.1 = some v
        ∧ ∀ nested value, v = .obj nested → kv.2 ≠ .obj value) := by
  unfold mergeKey at h
  by_cases hkey : kv.1 = "listen_ports"
  · rw [if_pos hkey] at h
    obtain ⟨ys, hys, h⟩ := bind_eq_ok.mp h
    exact Or.inl ⟨hkey, ys, hys, hkey ▸ (pure_eq_ok.mp h).symm⟩
  · rw [if_neg hkey] at h
    refine Or.inr ?_
    split at h
    · rename_i hnone
      exact Or.inl ⟨hkey, hnone, (Except.ok.inj h).symm⟩
    · rename_i nested value hsome hvalue
      exact Or.inr (Or.inl ⟨hkey, nested, value, hsome, hvalue, (Except.ok.inj h).symm⟩)
    · rename_i v hsome hother
      refine Or.inr (Or.inr ⟨hkey, (Except.ok.inj h).symm, v, hsome, ?_⟩)
      rintro nested value rfl hobj
      exact hother nested value hobj rfl

/-- **One turn keeps what it finds.** -/
theorem mergeKey_keeps {merged merged' : Dict} {kv : String × Json} (hports : HashablePorts merged)
    (h : mergeKey merged kv = .ok merged') :
    HashablePorts merged' ∧ ∀ key v, merged.get? key = some v →
      ∃ w, merged'.get? key = some w ∧ KeepsValue [kv] key v w := by
  have hself {key : String} {v : Json} (hv : merged.get? key = some v) : KeepsValue [kv] key v v := by
    unfold KeepsValue
    split
    · rename_i hkey
      obtain ⟨xs, rfl, -⟩ := hports v (hkey ▸ hv)
      exact ⟨xs, xs, rfl, rfl, List.prefix_rfl⟩
    · exact Or.inl rfl
  have hset {l : String} {x : Json} (hl : l ≠ "listen_ports") (hm : merged' = merged.set l x) :
      HashablePorts merged' := by
    rintro v hv
    rw [hm, Dict.get?_set_of_ne merged x (Ne.symm hl)] at hv
    exact hports v hv
  rcases mergeKey_cases h with ⟨hkey, ys, hys, hm⟩ | ⟨hkey, hnone, hm⟩
    | ⟨hkey, nested, value, hsome, hvalue, hm⟩ | ⟨hkey, hm, -⟩
  · -- the entries of `listen_ports` grow
    obtain ⟨hleads, hentries, -⟩ := mergePorts_ok hports hys
    refine ⟨fun v hv => ?_, fun key v hv => ?_⟩
    · rw [hm, Dict.get?_set_self] at hv
      exact ⟨ys, (Option.some.inj hv).symm, hentries⟩
    · by_cases hk : key = "listen_ports"
      · obtain ⟨xs, hxs, hpre⟩ := hleads v (hk ▸ hv)
        refine ⟨.arr ys, by rw [hm, hk, Dict.get?_set_self], ?_⟩
        rw [KeepsValue, if_pos hk]
        exact ⟨xs, ys, hxs, rfl, hpre⟩
      · exact ⟨v, by rw [hm, Dict.get?_set_of_ne merged _ hk, hv], hself hv⟩
  · -- a new key
    refine ⟨hset hkey hm, fun key v hv => ⟨v, ?_, hself hv⟩⟩
    have hne : key ≠ kv.1 := fun e => by rw [e, hnone] at hv; cases hv
    rw [hm, Dict.get?_set_of_ne merged _ hne, hv]
  · -- an object grows by members
    refine ⟨hset hkey hm, fun key v hv => ?_⟩
    by_cases hk : key = kv.1
    · cases (hk ▸ hv : merged.get? kv.1 = some v).symm.trans hsome
      refine ⟨.obj (mergeNested nested value), by rw [hm, hk, Dict.get?_set_self], ?_⟩
      rw [KeepsValue, if_neg (hk ▸ hkey)]
      refine Or.inr ⟨⟨value, ?_⟩, nested, mergeNested nested value, rfl, rfl, ?_⟩
      · exact List.mem_singleton.mpr (Prod.ext hk hvalue.symm)
      · exact fun k x hx => get?_mergeNested_of_some value hx
    · exact ⟨v, by rw [hm, Dict.get?_set_of_ne merged _ hk, hv], hself hv⟩
  · subst hm
    exact ⟨hports, fun key v hv => ⟨v, hv, hself hv⟩⟩

/-- Keeping is transitive along the members merged in. -/
theorem KeepsValue.trans {kv : String × Json} {incoming : Dict} {key : String} {u v w : Json}
    (h : KeepsValue [kv] key u v) (h' : KeepsValue incoming key v w) :
    KeepsValue (kv :: incoming) key u w := by
  unfold KeepsValue at *
  by_cases hkey : key = "listen_ports"
  · rw [if_pos hkey] at *
    obtain ⟨xs, ys, rfl, rfl, hpre⟩ := h
    obtain ⟨ys', zs, heq, rfl, hpre'⟩ := h'
    cases heq
    exact ⟨xs, zs, rfl, rfl, hpre.trans hpre'⟩
  · rw [if_neg hkey] at *
    rcases h with rfl | ⟨⟨value, hmem⟩, kvs, kws, rfl, rfl, hall⟩
    · rcases h' with rfl | ⟨⟨value, hmem⟩, hkeeps⟩
      · exact Or.inl rfl
      · exact Or.inr ⟨⟨value, List.mem_cons_of_mem kv hmem⟩, hkeeps⟩
    · have hin : (key, Json.obj value) ∈ kv :: incoming :=
        List.mem_cons.mpr (Or.inl (List.mem_singleton.mp hmem))
      rcases h' with rfl | ⟨-, kvs', kws', heq, rfl, hall'⟩
      · exact Or.inr ⟨⟨value, hin⟩, kvs, kws, rfl, rfl, hall⟩
      · cases heq
        exact Or.inr ⟨⟨value, hin⟩, kvs, kws', rfl, rfl, fun k x hx => hall' k x (hall k x hx)⟩

/-- **A merge keeps what it finds.** -/
theorem mergeMetadata_keeps {existing incoming merged : Dict} (hports : HashablePorts existing)
    (h : mergeMetadata existing incoming = .ok merged) :
    HashablePorts merged ∧ ∀ key v, existing.get? key = some v →
      ∃ w, merged.get? key = some w ∧ KeepsValue incoming key v w := by
  unfold mergeMetadata at h
  induction incoming generalizing existing with
  | nil =>
    cases pure_eq_ok.mp h
    refine ⟨hports, fun key v hv => ⟨v, hv, ?_⟩⟩
    unfold KeepsValue
    split
    · rename_i hkey
      obtain ⟨xs, rfl, -⟩ := hports v (hkey ▸ hv)
      exact ⟨xs, xs, rfl, rfl, List.prefix_rfl⟩
    · exact Or.inl rfl
  | cons kv incoming ih =>
    rw [List.foldlM_cons] at h
    obtain ⟨next, hnext, h⟩ := bind_eq_ok.mp h
    obtain ⟨hports', hstep⟩ := mergeKey_keeps hports hnext
    obtain ⟨hports'', hrest⟩ := ih hports' h
    refine ⟨hports'', fun key v hv => ?_⟩
    obtain ⟨u, hu, hvu⟩ := hstep key v hv
    obtain ⟨w, hw, huw⟩ := hrest key u hu
    exact ⟨w, hw, hvu.trans huw⟩

/-- A merge raises at a discovered entry that has no marker. -/
theorem mergeMetadata_error {existing incoming : Dict} {e : PyError} (hports : HashablePorts existing)
    (h : mergeMetadata existing incoming = .error e) :
    ∃ xs item, ("listen_ports", .arr xs) ∈ incoming ∧ .obj item ∈ xs ∧ portMarker item = .error e := by
  obtain ⟨kv, hkv, merged, hmerged, hraise⟩ := foldlM_eq_error HashablePorts
    (fun kv _ merged merged' hm hok => (mergeKey_keeps hm hok).1) hports h
  unfold mergeKey at hraise
  by_cases hkey : kv.1 = "listen_ports"
  · rw [if_pos hkey] at hraise
    obtain ⟨k, v⟩ := kv
    rcases bind_eq_error.mp hraise with hraise | ⟨ys, -, hraise⟩
    · obtain ⟨item, hitem, hmarker⟩ := mergePorts_error hmerged hraise
      cases v with
      | arr xs => exact ⟨xs, item, hkey ▸ hkv, hitem, hmarker⟩
      | null | bool _ | int _ | float _ | str _ | obj _ => cases hitem
    · exact absurd hraise pure_ne_error
  · rw [if_neg hkey] at hraise
    split at hraise <;> cases hraise

/-! ## §3. Fields. -/

/-- What is kept of a stored record. -/
structure Curated (discovered old new : ServiceRecord) : Prop where
  serviceId : new.serviceId = old.serviceId
  name : old.name ≠ "" → new.name = old.name
  nodeId : old.nodeId ≠ "" → new.nodeId = old.nodeId
  kind : old.kind ≠ "" → new.kind = old.kind
  runtime : old.runtime ≠ "" → new.runtime = old.runtime
  domains : old.domains ≠ [] → new.domains = old.domains
  deployPath : old.deployPath ≠ "" → new.deployPath = old.deployPath
  configPaths : old.configPaths ≠ [] → new.configPaths = old.configPaths
  envPaths : old.envPaths ≠ [] → new.envPaths = old.envPaths
  dataPaths : old.dataPaths ≠ [] → new.dataPaths = old.dataPaths
  healthCheckUrl : old.healthCheckUrl ≠ "" → new.healthCheckUrl = old.healthCheckUrl
  monitorEnabled : old.monitorEnabled = true → new.monitorEnabled = true
  docsPath : old.docsPath ≠ "" → new.docsPath = old.docsPath
  source : old.source ≠ "" → new.source = old.source
  status : old.status ≠ "" → new.status = old.status
  /-- The ports are in order, each once, and come from either side. -/
  sorted : new.ports.Pairwise (· < ·)
  ports : ∀ port, port ∈ new.ports ↔ port ∈ old.ports ∨ port ∈ discovered.ports
  metadata : ∀ key v, old.metadata.get? key = some v → key ≠ "discovery_source" →
    ∃ w, new.metadata.get? key = some w ∧ KeepsValue discovered.metadata key v w

theorem preferExisting_of_ne {α : Type} [DecidableEq α] [Inhabited α] {existing : α} (incoming : α)
    (h : existing ≠ default) : preferExisting existing incoming = existing :=
  if_pos (Or.inl (decide_eq_true h))

theorem mem_mergeUniqueInts {left right : List Int} {port : Int} :
    port ∈ mergeUniqueInts left right ↔ port ∈ left ∨ port ∈ right := by
  rw [mergeUniqueInts, List.mem_insertionSort, List.mem_dedup, List.mem_append]

theorem mergeUniqueInts_sorted (left right : List Int) :
    (mergeUniqueInts left right).Pairwise (· < ·) := by
  have hle := List.pairwise_insertionSort (α := Int) (· ≤ ·) (left ++ right).dedup
  have hne : (mergeUniqueInts left right).Nodup :=
    (List.perm_insertionSort _ _).nodup_iff.mpr (List.nodup_dedup _)
  exact (hle.and hne).imp (fun h => lt_of_le_of_ne h.1 h.2)

/-- **The planned service keeps what is stored.** -/
theorem mergedService_curated {source : String} {existing discovered service : ServiceRecord}
    (hports : HashablePorts existing.metadata)
    (h : mergedService source existing discovered = .ok service) :
    Curated discovered existing service := by
  obtain ⟨metadata, hmerge, h⟩ := bind_eq_ok.mp h
  cases pure_eq_ok.mp h
  constructor
  case serviceId => rfl
  case sorted => exact mergeUniqueInts_sorted _ _
  case ports => exact fun port => mem_mergeUniqueInts
  case metadata =>
    rintro key v hv hkey
    obtain ⟨w, hw, hkeeps⟩ := (mergeMetadata_keeps hports hmerge).2 key v hv
    exact ⟨w, (Dict.get?_set_of_ne metadata _ hkey).trans hw, hkeeps⟩
  case monitorEnabled =>
    rintro htrue
    have hne : existing.monitorEnabled ≠ default := by rw [htrue]; decide
    exact (preferExisting_of_ne _ hne).trans htrue
  all_goals exact fun hne => preferExisting_of_ne _ hne

theorem get?_withAsset_of_some {d : Dict} {k : String} {v : Json}
    (asset : Int × String × List String) (h : d.get? k = some v) :
    (withAsset d asset).get? k = some v :=
  get?_setDefault_of_some _ _ (get?_setDefault_of_some _ _ (get?_setDefault_of_some _ _ h))

/-- The record a save returns keeps it, too. -/
theorem Curated.saved {discovered old new : ServiceRecord} (h : Curated discovered old new)
    (now : Timestamp) (existing : Option ServiceRecord) :
    Curated discovered old (savedService now existing new) where
  __ := h
  metadata := by
    rintro key v hv hkey
    obtain ⟨w, hw, hkeeps⟩ := h.metadata key v hv hkey
    exact ⟨w, get?_withAsset_of_some _ hw, hkeeps⟩

/-- The keys of a record's metadata, sorted as a save writes them. -/
def ServiceRecord.sorted (service : ServiceRecord) : ServiceRecord :=
  { service with metadata := service.metadata.sortKeys }

theorem KeepsValue.sortKeys {incoming : Dict} {key : String} {v w : Json}
    (h : KeepsValue incoming key v w) : KeepsValue incoming key v.sortKeys w.sortKeys := by
  unfold KeepsValue at *
  split
  · rename_i hkey
    rw [if_pos hkey] at h
    obtain ⟨xs, ys, rfl, rfl, hpre⟩ := h
    refine ⟨_, _, rfl, rfl, ?_⟩
    rw [Json.sortKeysList_eq, Json.sortKeysList_eq]
    exact hpre.map Json.sortKeys
  · rename_i hkey
    rw [if_neg hkey] at h
    rcases h with rfl | ⟨hmem, kvs, kws, rfl, rfl, hall⟩
    · exact Or.inl rfl
    · refine Or.inr ⟨hmem, kvs.sortKeys, kws.sortKeys, rfl, rfl, fun k x hx => ?_⟩
      rw [Dict.get?_sortKeys, Option.map_eq_some_iff] at hx ⊢
      obtain ⟨y, hy, rfl⟩ := hx
      exact ⟨y, hall k y hy, rfl⟩

/-- And so does the row, whose keys are sorted. -/
theorem Curated.row {discovered old new : ServiceRecord} (h : Curated discovered old new)
    (existing : Option ServiceRecord) : Curated discovered old.sorted (serviceRow existing new) where
  __ := h
  metadata := by
    rintro key v hv hkey
    rw [ServiceRecord.sorted, Dict.get?_sortKeys, Option.map_eq_some_iff] at hv
    obtain ⟨u, hu, rfl⟩ := hv
    obtain ⟨w, hw, hkeeps⟩ := h.metadata key u hu hkey
    refine ⟨w.sortKeys, (Dict.get?_sortKeys new.metadata key).trans ?_, hkeeps.sortKeys⟩
    rw [hw, Option.map_some]

/-! ## §4. Saving. -/

/-- A save returns every planned service, with its asset. -/
theorem saveServices_saved (clock : Nat → Timestamp) (planned : List ServiceRecord) (i : Nat)
    (services : ServiceTable) :
    List.Forall₂ (fun service saved => ∃ now existing, saved = savedService now existing service)
      planned (saveServices clock i planned services).1 := by
  induction planned generalizing i services with
  | nil => exact .nil
  | cons service planned ih => exact .cons ⟨_, _, rfl⟩ (ih _ _)

/-- The row under an identifier after the saves: the one that was there, or
that of a planned service. -/
theorem find?_saveServices (clock : Nat → Timestamp) (planned : List ServiceRecord) (i : Nat)
    (services : ServiceTable) (id : String) :
    ((∀ service ∈ planned, service.serviceId ≠ id)
      ∧ (saveServices clock i planned services).2.find? id = services.find? id)
    ∨ ∃ service ∈ planned, service.serviceId = id ∧ ∃ now existing,
        (saveServices clock i planned services).2.find? id
          = some (serviceRow existing (savedService now existing service)) := by
  induction planned generalizing i services with
  | nil => exact Or.inl ⟨nofun, rfl⟩
  | cons service planned ih =>
    rcases ih (i + 1) (services.saveServiceRecord (clock i) service).2 with ⟨hne, hfind⟩
      | ⟨service', hmem, hid, hrow⟩
    · by_cases hid : service.serviceId = id
      · refine Or.inr ⟨service, List.mem_cons_self, hid, clock i,
          services.find? service.serviceId, hfind.trans ?_⟩
        rw [← hid]
        exact Table.find?_upsert_self services (serviceRow (services.find? service.serviceId)
          (savedService (clock i) (services.find? service.serviceId) service))
      · refine Or.inl ⟨List.forall_mem_cons.mpr ⟨hid, hne⟩, hfind.trans ?_⟩
        exact Table.find?_upsert_of_ne services hid
    · exact Or.inr ⟨service', List.mem_cons_of_mem service hmem, hid, hrow⟩

/-! ## §5. Discovery. -/

/-- A service that is stored is planned with everything curated. -/
theorem planService_curated {services : ServiceTable} {nodeId source : String}
    {record old : ServiceRecord} {entry : ServiceRecord × Change}
    (hold : services.loadServiceRecord record.serviceId = some old)
    (hports : HashablePorts old.metadata)
    (h : planService services nodeId source record = .ok entry) : Curated record old entry.1 := by
  have hload : services.loadServiceRecord (asDiscovered nodeId source record).serviceId = some old :=
    hold
  simp only [planService, hload] at h
  obtain ⟨service, hservice, h⟩ := bind_eq_ok.mp h
  cases pure_eq_ok.mp h
  exact { mergedService_curated hports hservice with }

theorem planService_serviceId {services : ServiceTable} {nodeId source : String}
    {record : ServiceRecord} {entry : ServiceRecord × Change}
    (h : planService services nodeId source record = .ok entry) :
    entry.1.serviceId = record.serviceId := by
  unfold planService at h
  dsimp only at h
  split at h
  · rename_i existing hexisting
    have hkey : existing.serviceId = record.serviceId := Table.key_of_find? hexisting
    obtain ⟨service, hservice, h⟩ := bind_eq_ok.mp h
    obtain ⟨metadata, -, hservice⟩ := bind_eq_ok.mp hservice
    cases pure_eq_ok.mp h
    cases pure_eq_ok.mp hservice
    exact hkey
  · cases pure_eq_ok.mp h
    rfl

/-- Planning raises at a discovered entry that has no marker. -/
theorem planService_error {services : ServiceTable} {nodeId source : String}
    {record : ServiceRecord} {e : PyError}
    (hports : ∀ old, services.loadServiceRecord record.serviceId = some old →
      HashablePorts old.metadata)
    (h : planService services nodeId source record = .error e) :
    ∃ xs item, ("listen_ports", .arr xs) ∈ record.metadata ∧ .obj item ∈ xs
      ∧ portMarker item = .error e := by
  unfold planService at h
  dsimp only at h
  split at h
  · rename_i existing hexisting
    rcases bind_eq_error.mp h with h | ⟨service, -, h⟩
    · rcases bind_eq_error.mp h with h | ⟨metadata, -, h⟩
      · exact mergeMetadata_error (hports existing hexisting) h
      · exact absurd h pure_ne_error
    · exact absurd h pure_ne_error
  · exact absurd h pure_ne_error

/-- **Discovery never overwrites curated data.**  Unless a discovered entry
of `listen_ports` has no marker, and then nothing is changed, every record
planned and every record saved for a stored service keeps what is curated of
it, and so does the row that is left. -/
theorem discovery_keeps_curated (clock : Nat → Timestamp) (nodeId source : String)
    (records : List ServiceRecord) (store : ServiceStore)
    (hscalar : ∀ record ∈ records, ∀ old,
      store.services.loadServiceRecord record.serviceId = some old → ScalarPorts old.metadata) :
    (∃ e, applyDiscoveredServices clock nodeId source records store = (.error e, store)
      ∧ ∃ record ∈ records, ∃ xs item, ("listen_ports", .arr xs) ∈ record.metadata
        ∧ .obj item ∈ xs ∧ portMarker item = .error e)
    ∨ ∃ plan saved store',
      planDiscoveredServices store.services nodeId source records = .ok plan
      ∧ applyDiscoveredServices clock nodeId source records store = (.ok saved, store')
      ∧ List.Forall₂ (fun record planned => ∀ old,
          store.services.loadServiceRecord record.serviceId = some old → Curated record old planned)
        records (plan.map Prod.fst)
      ∧ List.Forall₂ (fun record saved => ∀ old,
          store.services.loadServiceRecord record.serviceId = some old → Curated record old saved)
        records saved
      ∧ ∀ id old, store.services.loadServiceRecord id = some old →
        ((∀ record ∈ records, record.serviceId ≠ id)
          ∧ store'.services.loadServiceRecord id = some old)
        ∨ ∃ record ∈ records, record.serviceId = id ∧ ∃ row,
          store'.services.loadServiceRecord id = some row ∧ Curated record old.sorted row := by
  have hports : ∀ record ∈ records, ∀ old,
      store.services.loadServiceRecord record.serviceId = some old → HashablePorts old.metadata :=
    fun record hmem old hold => (hscalar record hmem old hold).hashable
  cases hplan : planDiscoveredServices store.services nodeId source records with
  | error e =>
    obtain ⟨record, hmem, hraise⟩ := mapM_eq_error hplan
    refine Or.inl ⟨e, by rw [applyDiscoveredServices, hplan], record, hmem, ?_⟩
    exact planService_error (hports record hmem) hraise
  | ok plan =>
    have hplanned : List.Forall₂ (fun record planned => record ∈ records
        ∧ planned.serviceId = record.serviceId ∧ ∀ old,
          store.services.loadServiceRecord record.serviceId = some old → Curated record old planned)
        records (plan.map Prod.fst) := by
      rw [List.forall₂_map_right_iff, List.forall₂_and_left]
      refine ⟨fun _ hmem => hmem, ?_⟩
      refine ((List.forall₂_and_left _ _).mpr ⟨fun _ hmem => hmem, mapM_eq_ok.mp hplan⟩).imp ?_
      rintro record entry ⟨hmem, hentry⟩
      exact ⟨planService_serviceId hentry,
        fun old hold => planService_curated hold (hports record hmem old hold) hentry⟩
    refine Or.inr ⟨plan, _, _, rfl, by rw [applyDiscoveredServices, hplan], ?_, ?_, ?_⟩
    · exact hplanned.imp (fun _ _ h => h.2.2)
    · refine forall₂_comp ?_ hplanned (saveServices_saved clock _ 0 store.services)
      rintro record planned saved ⟨-, -, hcurated⟩ ⟨now, existing, rfl⟩ old hold
      exact (hcurated old hold).saved now existing
    · rintro id old hold
      rcases find?_saveServices clock (plan.map Prod.fst) 0 store.services id with ⟨hne, hfind⟩
        | ⟨planned, hmem, hid, now, existing, hrow⟩
      · refine Or.inl ⟨fun record hmem hid => ?_, hfind.trans hold⟩
        obtain ⟨planned, hplan, -, hkey, -⟩ := exists_right hplanned hmem
        exact hne planned hplan (hkey.trans hid)
      · obtain ⟨record, -, hrecord, hkey, hcurated⟩ := exists_left hplanned hmem
        have hsame : record.serviceId = id := hkey.symm.trans hid
        exact Or.inr ⟨record, hrecord, hsame, _, hrow,
          ((hcurated old (hsame ▸ hold)).saved now existing).row existing⟩

/-- A blog an operator registered, and what a discovery found of it. -/
def curatedBlog : ServiceRecord where
  serviceId := "svc_blog"
  name := "Blog"
  nodeId := "node-a"
  ports := [443]
  metadata := [("listen_ports", .arr [.obj [("port", .int 443), ("process", .str "caddy")]])]

def discoveredBlog : ServiceRecord where
  serviceId := "svc_blog"
  name := "blog"
  runtime := "ss"
  ports := [80]
  metadata := [("listen_ports", .arr [.obj [("port", .int 443), ("process", .str "caddy")],
    .obj [("port", .int 80), ("process", .str "caddy")]])]

def curatedStore : ServiceStore where
  services := .single curatedBlog
  audit := []

theorem curatedBlog_kept : ∃ row,
    (applyDiscoveredServices 0 "node-a" "discovery" [discoveredBlog]
      curatedStore).2.services.loadServiceRecord "svc_blog" = some row
    ∧ row.name = "Blog" ∧ row.ports.Pairwise (· < ·) ∧ 443 ∈ row.ports ∧ 80 ∈ row.ports := by
  have hscalar : ∀ record ∈ [discoveredBlog], ∀ old,
      curatedStore.services.loadServiceRecord record.serviceId = some old →
        ScalarPorts old.metadata := by
    rintro record hmem old hold v hv
    cases List.mem_singleton.mp hmem
    cases hold
    cases hv
    refine ⟨_, rfl, fun x hx => ?_⟩
    cases List.mem_singleton.mp hx
    exact ⟨_, rfl, by decide⟩
  rcases discovery_keeps_curated 0 "node-a" "discovery" [discoveredBlog] curatedStore hscalar with
    ⟨e, happly, -⟩ | ⟨plan, saved, store', -, happly, -, -, hrows⟩
  · have hok : (applyDiscoveredServices 0 "node-a" "discovery" [discoveredBlog]
        curatedStore).1.isOk = true := by decide +kernel
    rw [happly] at hok
    cases hok
  · rcases hrows "svc_blog" curatedBlog rfl with ⟨hne, -⟩ | ⟨record, hmem, -, row, hrow, hcurated⟩
    · exact absurd rfl (hne discoveredBlog (by simp))
    · cases List.mem_singleton.mp hmem
      refine ⟨row, by rw [happly, hrow], hcurated.name (by decide), hcurated.sorted, ?_, ?_⟩
      · exact (hcurated.ports 443).mpr (Or.inl (by decide))
      · exact (hcurated.ports 80).mpr (Or.inr (by decide))

end Hmn
