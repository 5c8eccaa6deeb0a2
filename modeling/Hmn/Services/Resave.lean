/-
  Hmn.Services.Resave — saving a loaded service record again.

  The first save writes the category it found under the key its own hint is
  read from.  The second save reads it there, and unless the hint says what
  it said before, the score and the reasons move.

  Main results: `classify_saved` (what the second save finds) and
  `resave_unchanged_iff`.
-/
import Hmn.Services.Records

namespace Hmn

open Framework

/-! ## §1. The hint. -/

/-- A hint that counts. -/
def Recognised (raw : String) : Prop := raw ∈ businessCategories ∨ raw ∈ systemCategories

instance (raw : String) : Decidable (Recognised raw) := by
  unfold Recognised
  infer_instance

/-- The classification under the hint `raw`. -/
def classifyHinted (service : ServiceRecord) (raw : String) : Int × String × List String :=
  let bumps := bump (service.source = "manual") 60 "manual asset registration"
    ++ hintBumps raw ++ signalBumps service
  let score := (bumps.map Prod.fst).sum
  let reasons := bumps.map Prod.snd
  (max (-100) (min 100 score), assetCategory service.source raw score,
    if reasons = [] then ["insufficient asset signals"] else reasons)

theorem classifyServiceAsset_eq (service : ServiceRecord) :
    classifyServiceAsset service = classifyHinted service (rawCategory service.metadata) := rfl

/-- Hints that do not count are all alike. -/
theorem classifyHinted_unrecognised (service : ServiceRecord) {raw raw' : String}
    (h : ¬ Recognised raw) (h' : ¬ Recognised raw') :
    classifyHinted service raw = classifyHinted service raw' := by
  simp only [Recognised, not_or] at h h'
  simp [classifyHinted, hintBumps, assetCategory, bump, h.1, h.2, h'.1, h'.2]

/-- A text that starts with something else than a letter is no hint. -/
theorem not_recognised_of_bracket {c : Char} (hc : c = '[' ∨ c = '\x7b') (cs : List Char) :
    ¬ Recognised (Text.lower (Text.strip (String.ofList (c :: cs)))) := by
  have hspace : Text.isSpace c = false := by rcases hc with rfl | rfl <;> decide
  have hlower : Text.lowerChar c = [c] := by rcases hc with rfl | rfl <;> decide
  have hstrip : ∃ rest, Text.stripChars (c :: cs) = c :: rest := by
    unfold Text.stripChars
    rw [List.dropWhile_cons_of_neg (by simp [hspace]), List.reverse_cons,
      List.dropWhile_append]
    split
    · exact ⟨[], by simp [hspace]⟩
    · exact ⟨_, by rw [List.reverse_append]; rfl⟩
  obtain ⟨rest, hrest⟩ := hstrip
  have htext : Text.lower (Text.strip (String.ofList (c :: cs)))
      = String.ofList (c :: rest.flatMap Text.lowerChar) := by
    simp [Text.lower, Text.strip, hrest, hlower]
  have hhead : ∀ word ∈ businessCategories ++ systemCategories,
      word.toList.head? ≠ some '[' ∧ word.toList.head? ≠ some '\x7b' := by decide
  rw [htext]
  intro hword
  have hno := hhead _ (List.mem_append.mpr hword)
  rw [String.toList_ofList, List.head?_cons] at hno
  rcases hc with rfl | rfl
  · exact hno.1 rfl
  · exact hno.2 rfl

theorem asStr_arr (xs : List Json) : ∃ cs, (Json.arr xs).asStr = String.ofList ('[' :: cs) := by
  refine ⟨(String.intercalate ", " (Json.reprList xs) ++ "]").toList, ?_⟩
  have htext : (Json.arr xs).asStr = "[" ++ String.intercalate ", " (Json.reprList xs) ++ "]" := by
    rw [Json.asStr, Json.repr]
    exact fun s heq => by cases heq
  rw [htext, String.append_assoc]
  exact String.toList_inj.mp (by simp)

theorem asStr_obj (kvs : List (String × Json)) :
    ∃ cs, (Json.obj kvs).asStr = String.ofList ('\x7b' :: cs) := by
  refine ⟨(String.intercalate ", " (Json.reprFields kvs) ++ "\x7d").toList, ?_⟩
  have htext : (Json.obj kvs).asStr
      = "\x7b" ++ String.intercalate ", " (Json.reprFields kvs) ++ "\x7d" := by
    rw [Json.asStr, Json.repr]
    exact fun s heq => by cases heq
  rw [htext, String.append_assoc]
  exact String.toList_inj.mp (by simp)

/-- Sorting the keys changes the text of lists and objects only. -/
theorem asStr_sortKeys (v : Json) :
    v.sortKeys.asStr = v.asStr
      ∨ (¬ Recognised (Text.lower (Text.strip v.sortKeys.asStr))
        ∧ ¬ Recognised (Text.lower (Text.strip v.asStr))) := by
  cases v with
  | arr xs =>
    obtain ⟨cs, hcs⟩ := asStr_arr xs
    obtain ⟨cs', hcs'⟩ := asStr_arr (Json.sortKeysList xs)
    rw [Json.sortKeys, hcs, hcs']
    exact Or.inr ⟨not_recognised_of_bracket (Or.inl rfl) _, not_recognised_of_bracket (Or.inl rfl) _⟩
  | obj kvs =>
    obtain ⟨cs, hcs⟩ := asStr_obj kvs
    obtain ⟨cs', hcs'⟩ :=
      asStr_obj ((Json.sortKeysFields kvs).insertionSort (fun a b => a.1 ≤ b.1))
    rw [Json.sortKeys, hcs, hcs']
    exact Or.inr ⟨not_recognised_of_bracket (Or.inr rfl) _, not_recognised_of_bracket (Or.inr rfl) _⟩
  | null | bool _ | int _ | float _ | str _ => exact Or.inl rfl

/-- What counts in a hint is the same after the keys are sorted. -/
theorem classifyHinted_sortKeys (service : ServiceRecord) (d : Dict) :
    classifyHinted service (rawCategory d.sortKeys) = classifyHinted service (rawCategory d) := by
  have hkey (k : String) : (d.sortKeys.get? k).filter Json.truthy
      = ((d.get? k).filter Json.truthy).map Json.sortKeys := by
    rw [Dict.get?_sortKeys]
    cases d.get? k with
    | none => rfl
    | some v => cases hv : v.truthy <;> simp [Option.filter, Json.truthy_sortKeys, hv]
  have hsame (v : Json) : classifyHinted service (Text.lower (Text.strip v.sortKeys.asStr))
      = classifyHinted service (Text.lower (Text.strip v.asStr)) := by
    rcases asStr_sortKeys v with h | ⟨hs, hv⟩
    · rw [h]
    · exact classifyHinted_unrecognised service hs hv
  simp only [rawCategory, firstTrue, Dict.getStr_eq, Dict.text?, hkey]
  cases (d.get? "asset_category").filter Json.truthy with
  | some v => exact hsame v
  | none =>
    cases (d.get? "asset_class").filter Json.truthy with
    | some v => exact hsame v
    | none => rfl

/-! ## §2. What the first save leaves. -/

/-- A dictionary that has the three keys of an asset is left as it is. -/
theorem withAsset_of_keys {d : Dict} {asset : Int × String × List String}
    (hscore : d.get? "asset_score" ≠ none) (hcategory : d.get? "asset_category" ≠ none)
    (hwhy : d.get? "why_asset" ≠ none) : withAsset d asset = d := by
  have hkeep {k : String} {v : Json} (h : d.get? k ≠ none) : setDefault d k v = d :=
    if_pos (Option.isSome_iff_ne_none.mpr h)
  rw [withAsset, hkeep hscore, hkeep hcategory, hkeep hwhy]

theorem get?_withAsset_category (d : Dict) (asset : Int × String × List String) :
    (withAsset d asset).get? "asset_category"
      = some ((d.get? "asset_category").getD (.str asset.2.1)) := by
  simp only [withAsset, get?_setDefault]
  cases d.get? "asset_category" <;> simp

theorem get?_withAsset_class (d : Dict) (asset : Int × String × List String) :
    (withAsset d asset).get? "asset_class" = d.get? "asset_class" := by
  simp [withAsset, get?_setDefault]

/-- Every key of an asset is there after a save. -/
theorem get?_withAsset_ne_none (d : Dict) (asset : Int × String × List String) {k : String}
    (hk : k ∈ ["asset_score", "asset_category", "why_asset"]) :
    (withAsset d asset).get? k ≠ none := by
  simp only [withAsset, get?_setDefault]
  rcases List.mem_cons.mp hk with rfl | hk
  · cases d.get? "asset_score" <;> simp
  · rcases List.mem_pair.mp hk with rfl | rfl
    · cases d.get? "asset_category" <;> simp
    · cases d.get? "why_asset" <;> simp

/-- The hint stays when there was one to read. -/
theorem rawCategory_withAsset {d : Dict} (h : d.get? "asset_category" ≠ none)
    (asset : Int × String × List String) : rawCategory (withAsset d asset) = rawCategory d := by
  obtain ⟨v, hv⟩ := Option.ne_none_iff_exists'.mp h
  simp only [rawCategory, firstTrue, Dict.getStr_eq, Dict.text?, get?_withAsset_category,
    get?_withAsset_class, hv, Option.getD_some]

theorem assetCategory_mem (source raw : String) (score : Int) :
    assetCategory source raw score ∈ ["main", "system", "pending"] := by
  unfold assetCategory
  repeat' split
  all_goals decide

/-- **The hint the second save reads** when the first one had none under that
key: the category it wrote itself. -/
theorem rawCategory_withAsset_absent {d : Dict} (h : d.get? "asset_category" = none)
    {asset : Int × String × List String} (hasset : asset.2.1 ∈ ["main", "system", "pending"]) :
    rawCategory (withAsset d asset) = asset.2.1 := by
  have hword : ∀ word ∈ ["main", "system", "pending"],
      word ≠ "" ∧ Text.lower (Text.strip word) = word := by decide
  obtain ⟨hne, hlower⟩ := hword _ hasset
  simp only [rawCategory, firstTrue, Dict.text?, get?_withAsset_category, h, Option.getD_none,
    Option.filter_some, Json.truthy_str, hne, ne_eq, not_false_eq_true, decide_true, if_true,
    Option.map_some, Json.asStr_str, hlower]

/-! ## §3. When a second save changes nothing. -/

/-- A hint gives at most one reason, and only its own. -/
theorem hintBumps_reasons (raw : String) :
    (hintBumps raw).map Prod.snd
      = if Recognised raw then ["asset_category=" ++ raw] else [] := by
  have hdisjoint : ∀ word ∈ businessCategories, word ∉ systemCategories := by decide
  unfold hintBumps bump Recognised
  by_cases hb : raw ∈ businessCategories
  · simp [hb, hdisjoint raw hb]
  · by_cases hs : raw ∈ systemCategories <;> simp [hb, hs]

/-- Two hints give the same reasons, the second one counting, only if they
are the same hint. -/
theorem reasons_inj {service : ServiceRecord} {raw raw' : String} (h' : Recognised raw')
    (h : (classifyHinted service raw).2.2 = (classifyHinted service raw').2.2) : raw = raw' := by
  have hinsufficient : ["insufficient asset signals"] ≠ ["asset_category=" ++ raw'] := by
    have hall : ∀ word ∈ businessCategories ++ systemCategories,
        ["insufficient asset signals"] ≠ ["asset_category=" ++ word] := by decide
    exact hall raw' (List.mem_append.mpr h')
  simp only [classifyHinted, List.map_append, hintBumps_reasons, if_pos h'] at h
  generalize (bump (service.source = "manual") 60 "manual asset registration").map Prod.snd
    = front at h
  generalize (signalBumps service).map Prod.snd = back at h
  have hne : front ++ ["asset_category=" ++ raw'] ++ back ≠ [] := by simp
  rw [if_neg hne] at h
  -- If the first hint does not count, its list is one reason shorter, or it is the remark that
  -- the signals are insufficient.
  by_cases hr : Recognised raw
  · have hne' : front ++ ["asset_category=" ++ raw] ++ back ≠ [] := by simp
    rw [if_pos hr, if_neg hne'] at h
    have hword := List.append_cancel_left (List.append_cancel_right h)
    exact (String.append_right_inj _).mp (List.singleton_inj.mp hword)
  · rw [if_neg hr, List.append_nil] at h
    split at h
    · rename_i hnil
      obtain ⟨rfl, rfl⟩ := List.append_eq_nil_iff.mp hnil
      exact absurd h (by simpa using hinsufficient)
    · have hlength := congrArg List.length h
      simp only [List.length_append, List.length_singleton] at hlength
      omega

/-- The sum of the signals a record gives by itself. -/
def signalScore (service : ServiceRecord) : Int := ((signalBumps service).map Prod.fst).sum

/-- A hint that a second save reads as the first one did: there is one under
its own key, or the one there is names the category it leads to, or no hint
and the signals of a discovered record leave it pending. -/
def SettledHint (service : ServiceRecord) : Prop :=
  service.metadata.get? "asset_category" ≠ none
  ∨ rawCategory service.metadata = "main"
  ∨ (rawCategory service.metadata = "system" ∧ service.source ≠ "manual")
  ∨ (service.source ≠ "manual" ∧ ¬ Recognised (rawCategory service.metadata)
      ∧ 0 ≤ signalScore service ∧ signalScore service < 40)

instance (service : ServiceRecord) : Decidable (SettledHint service) := by
  unfold SettledHint
  infer_instance

theorem assetCategory_pending_iff {source raw : String} {score : Int} :
    assetCategory source raw score = "pending"
      ↔ source ≠ "manual" ∧ ¬ Recognised raw ∧ 0 ≤ score ∧ score < 40 := by
  unfold assetCategory Recognised
  by_cases hmain : source = "manual" ∨ raw ∈ businessCategories
  · simp only [if_pos hmain]
    constructor
    · intro h
      exact absurd h (by decide)
    · rintro ⟨hsource, hraw, -⟩
      exact absurd hmain (not_or.mpr ⟨hsource, fun h => hraw (Or.inl h)⟩)
  · rw [not_or] at hmain
    simp only [hmain, if_false, or_self, false_or]
    by_cases hsystem : raw ∈ systemCategories
    · simp [hsystem]
    · by_cases hneg : score < 0
      · simp [hsystem, hneg, not_le.mpr hneg]
      · by_cases hhigh : score ≥ 40
        · simp [hsystem, hneg, hhigh]
        · have hlow : (0 ≤ score ∧ score < 40) = True := by simp; omega
          simp only [hsystem, hneg, hhigh, or_self, if_false, ite_self, hmain, not_false_eq_true,
            ne_eq, true_and, hlow]

/-- The score of a discovered record whose hint does not count. -/
theorem score_unhinted {service : ServiceRecord} {raw : String} (hsource : service.source ≠ "manual")
    (hraw : ¬ Recognised raw) :
    ((bump (service.source = "manual") 60 "manual asset registration" ++ hintBumps raw
      ++ signalBumps service).map Prod.fst).sum = signalScore service := by
  simp only [Recognised, not_or] at hraw
  simp [signalScore, hintBumps, bump, hsource, hraw.1, hraw.2]

/-- The category a first save finds is pending for no hint and few signals. -/
theorem category_pending_iff {service : ServiceRecord} {raw : String} :
    (classifyHinted service raw).2.1 = "pending"
      ↔ service.source ≠ "manual" ∧ ¬ Recognised raw ∧ 0 ≤ signalScore service
        ∧ signalScore service < 40 := by
  simp only [classifyHinted]
  rw [assetCategory_pending_iff]
  constructor
  · rintro ⟨hsource, hraw, hscore⟩
    rw [score_unhinted hsource hraw] at hscore
    exact ⟨hsource, hraw, hscore⟩
  · rintro ⟨hsource, hraw, hscore⟩
    rw [score_unhinted hsource hraw]
    exact ⟨hsource, hraw, hscore⟩

theorem category_main {service : ServiceRecord} : (classifyHinted service "main").2.1 = "main" := by
  simp [classifyHinted, assetCategory, businessCategories]

theorem category_system {service : ServiceRecord} (h : service.source ≠ "manual") :
    (classifyHinted service "system").2.1 = "system" := by
  simp [classifyHinted, assetCategory, businessCategories, systemCategories, h]

/-- A hint `system` on a record registered by hand makes it main. -/
theorem category_manual {service : ServiceRecord} (h : service.source = "manual") (raw : String) :
    (classifyHinted service raw).2.1 = "main" := by
  simp [classifyHinted, assetCategory, h]

/-- **The second save of a record without a hint of its own** finds what the
first one found exactly when its hint is settled. -/
theorem classifyHinted_category_iff {service : ServiceRecord}
    (h : service.metadata.get? "asset_category" = none) :
    classifyHinted service (classifyServiceAsset service).2.1 = classifyServiceAsset service
      ↔ SettledHint service := by
  rw [classifyServiceAsset_eq]
  generalize hraw : rawCategory service.metadata = raw
  have hsettled : SettledHint service ↔ raw = "main" ∨ (raw = "system" ∧ service.source ≠ "manual")
      ∨ (classifyHinted service raw).2.1 = "pending" := by
    rw [category_pending_iff, SettledHint, hraw]
    simp only [h, ne_eq, not_true, false_or]
  rw [hsettled]
  constructor
  -- The category is written back as the hint, and a hint that counts shows in the reasons.
  · intro hsame
    have hreasons := congrArg (fun asset => asset.2.2) hsame
    have hmem : (classifyHinted service raw).2.1 ∈ ["main", "system", "pending"] :=
      assetCategory_mem _ _ _
    rcases List.mem_cons.mp hmem with hmain | hmem
    · rw [hmain] at hreasons
      exact Or.inl (reasons_inj (by decide) hreasons.symm)
    · rcases List.mem_pair.mp hmem with hsystem | hpending
      · rw [hsystem] at hreasons
        have heq : raw = "system" := reasons_inj (by decide) hreasons.symm
        refine Or.inr (Or.inl ⟨heq, fun hmanual => ?_⟩)
        rw [category_manual hmanual] at hsystem
        exact absurd hsystem (by decide)
      · exact Or.inr (Or.inr hpending)
  -- A settled hint leads to itself, or to `pending`, which counts for nothing.
  · rintro (rfl | ⟨rfl, hsource⟩ | hpending)
    · rw [category_main]
    · rw [category_system hsource]
    · refine (congrArg (classifyHinted service) hpending).trans ?_
      exact classifyHinted_unrecognised service (by decide) (category_pending_iff.mp hpending).2.1

/-! ## §4. Rows. -/

/-- Load a record and save what was loaded. -/
def resave (serviceId : String) (services : ServiceTable) (now : Timestamp) : ServiceTable :=
  match services.loadServiceRecord serviceId with
  | none => services
  | some loaded => (services.saveServiceRecord now loaded).2

/-- The columns a save may not change: all but `updated_at`. -/
def lastingColumns (row : ServiceRecord) : ServiceRecord := { row with updatedAt := none }

/-- The asset columns of a row. -/
def assetColumns (row : ServiceRecord) : Int × String × List String :=
  (row.assetScore, row.assetCategory, row.whyAsset)

/-- A row with other asset columns, written at `now`. -/
def withAssetColumns (asset : Int × String × List String) (now : Timestamp) (row : ServiceRecord) :
    ServiceRecord :=
  { row with
    assetScore := asset.1
    assetCategory := asset.2.1
    whyAsset := asset.2.2
    updatedAt := some now }

/-- The metadata of a row that was saved. -/
structure SavedMetadata (row : ServiceRecord) : Prop where
  sorted : row.metadata.sortKeys = row.metadata
  keys : ∀ asset, withAsset row.metadata asset = row.metadata

/-- The first save. -/
theorem find?_saveServiceRecord (now : Timestamp) (service : ServiceRecord)
    (services : ServiceTable) :
    ∃ row, (services.saveServiceRecord now service).2.find? service.serviceId = some row
      ∧ SavedMetadata row ∧ row.serviceId = service.serviceId
      ∧ assetColumns row = classifyServiceAsset service
      ∧ classifyServiceAsset row
        = classifyHinted service (rawCategory (withAsset service.metadata
            (classifyServiceAsset service))) := by
  refine ⟨serviceRow (services.find? service.serviceId)
    (savedService now (services.find? service.serviceId) service), ?_, ⟨?_, ?_⟩, rfl, rfl, ?_⟩
  · exact Table.find?_upsert_self services _
  · exact Dict.sortKeys_sortKeys _
  · intro asset
    have hkey {k : String} (hk : k ∈ ["asset_score", "asset_category", "why_asset"]) :
        (withAsset service.metadata (classifyServiceAsset service)).sortKeys.get? k ≠ none := by
      rw [Dict.get?_sortKeys]
      simpa using get?_withAsset_ne_none service.metadata (classifyServiceAsset service) hk
    exact withAsset_of_keys (hkey (by simp)) (hkey (by simp)) (hkey (by simp))
  · exact classifyHinted_sortKeys service (withAsset service.metadata (classifyServiceAsset service))

/-- **A save of a loaded row** writes its asset columns and the time. -/
theorem find?_resave {serviceId : String} {services : ServiceTable} {row : ServiceRecord}
    (hrow : services.find? serviceId = some row) (h : SavedMetadata row) (now : Timestamp) :
    (resave serviceId services now).find? serviceId
      = some (withAssetColumns (classifyServiceAsset row) now row) := by
  have hkey : row.serviceId = serviceId := Table.key_of_find? hrow
  have hsave : resave serviceId services now
      = services.upsert (serviceRow (some row) (savedService now (some row) row)) := by
    simp only [resave, ServiceTable.loadServiceRecord, hrow, ServiceTable.saveServiceRecord, hkey]
  have hself : serviceRow (some row) (savedService now (some row) row)
      = withAssetColumns (classifyServiceAsset row) now row := by
    simp only [serviceRow, savedService, withAssetColumns, h.keys, h.sorted]
  rw [hsave, hself, Table.find?_upsert]
  exact if_pos hkey

/-- Saving loaded rows over and over writes the columns of the first time. -/
theorem find?_resaves {serviceId : String} {services : ServiceTable} {row : ServiceRecord}
    (hrow : services.find? serviceId = some row) (h : SavedMetadata row)
    (hasset : classifyServiceAsset row = assetColumns row) (times : List Timestamp) :
    ((times.foldl (resave serviceId) services).find? serviceId).map lastingColumns
      = some (lastingColumns row) := by
  induction times generalizing services row with
  | nil => rw [List.foldl_nil, hrow, Option.map_some]
  | cons now times ih =>
    have hnext := find?_resave hrow h now
    rw [hasset] at hnext
    have hend : ((times.foldl (resave serviceId) (resave serviceId services now)).find?
        serviceId).map lastingColumns
        = some (lastingColumns (withAssetColumns (assetColumns row) now row)) :=
      ih hnext ⟨h.sorted, h.keys⟩ hasset
    exact hend

/-- After the record was saved, loading it and saving what was loaded, any
number of times, leaves every column but the time of the update. -/
def ResaveUnchanged (services : ServiceTable) (service : ServiceRecord) (now : Timestamp) : Prop :=
  ∀ times : List Timestamp,
    ((times.foldl (resave service.serviceId) (services.saveServiceRecord now service).2).find?
        service.serviceId).map lastingColumns
      = ((services.saveServiceRecord now service).2.find? service.serviceId).map lastingColumns

/-- **Saving a loaded record again changes nothing** exactly when the hint of
the record is settled. -/
theorem resave_unchanged_iff (services : ServiceTable) (service : ServiceRecord) (now : Timestamp) :
    ResaveUnchanged services service now ↔ SettledHint service := by
  obtain ⟨row, hrow, hsaved, -, hcolumns, hclassify⟩ :=
    find?_saveServiceRecord now service services
  have hsettled : classifyServiceAsset row = assetColumns row ↔ SettledHint service := by
    rw [hclassify, hcolumns]
    by_cases hkey : service.metadata.get? "asset_category" = none
    · rw [rawCategory_withAsset_absent hkey (assetCategory_mem _ _ _)]
      exact classifyHinted_category_iff hkey
    · rw [rawCategory_withAsset hkey]
      exact iff_of_true rfl (Or.inl hkey)
  rw [← hsettled]
  constructor
  · intro h
    have hone := h [now]
    rw [List.foldl_cons, List.foldl_nil, find?_resave hrow hsaved now, hrow] at hone
    exact congrArg assetColumns (Option.some.inj hone)
  · intro h times
    rw [find?_resaves hrow hsaved h times, hrow]
    rfl

/-- A service that was registered by hand, with a name and nothing else. -/
def handRegistered : ServiceRecord := { serviceId := "svc_blog", name := "blog" }

/-- **Saving again moves the score**: 60 for the registration becomes 90 with
the category the first save wrote into the metadata. -/
theorem resave_moves_score : ¬ ResaveUnchanged .empty handRegistered 0 := by
  intro h
  have hassets := congrArg (Option.map assetColumns) (h [1])
  rw [Option.map_map, Option.map_map] at hassets
  have hfirst : ((ServiceTable.saveServiceRecord 0 handRegistered .empty).2.find? "svc_blog").map
      (assetColumns ∘ lastingColumns) = some (60, "main", ["manual asset registration"]) := by
    decide +kernel
  have hsecond : ((resave "svc_blog"
      (ServiceTable.saveServiceRecord 0 handRegistered .empty).2 1).find? "svc_blog").map
      (assetColumns ∘ lastingColumns)
      = some (90, "main", ["manual asset registration", "asset_category=main"]) := by
    decide +kernel
  exact absurd (hsecond.symm.trans (hassets.trans hfirst)) (by decide)

end Hmn
