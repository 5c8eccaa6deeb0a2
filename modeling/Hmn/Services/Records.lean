/-
  Hmn.Services.Records — service records and how they are stored.

  A saved service is classified as an asset: every signal of the record adds
  to a score and gives a reason.  One of the signals is a hint in the
  metadata, and the save writes its own result under the key of that hint.

  What a second save makes of that is `Hmn.Services.Resave`.
-/
import Hmn.Framework.SortKeys
import Hmn.Framework.Table
import Hmn.Framework.Text
import Hmn.Store.Time
import Mathlib.Algebra.Ring.Int.Defs

namespace Hmn

open Framework

/-! ## §1. Records. -/

/-- `storage.ServiceRecord`. -/
structure ServiceRecord where
  serviceId : String
  name : String
  nodeId : String := ""
  kind : String := "unknown"
  runtime : String := ""
  domains : List String := []
  ports : List Int := []
  deployPath : String := ""
  configPaths : List String := []
  envPaths : List String := []
  dataPaths : List String := []
  healthCheckUrl : String := ""
  monitorEnabled : Bool := false
  docsPath : String := ""
  source : String := "manual"
  status : String := "active"
  metadata : Dict := []
  assetScore : Int := 0
  assetCategory : String := "pending"
  whyAsset : List String := []
  createdAt : Option Timestamp := none
  updatedAt : Option Timestamp := none
  deriving DecidableEq

/-- The table `services`; its JSON columns are kept as what they decode to. -/
abbrev ServiceTable := Table ServiceRecord.serviceId

/-! ## §2. Assets. -/

/-- `d.get(first) or d.get(second) or ""`, as text. -/
def firstTrue (d : Dict) (first second : String) : String :=
  match d.text? first with
  | some text => text
  | none => d.getStr second ""

/-- `raw_category`. -/
def rawCategory (metadata : Dict) : String :=
  Text.lower (Text.strip (firstTrue metadata "asset_category" "asset_class"))

/-- The hints of an operator that mark a business asset. -/
def businessCategories : List String := ["business", "main", "primary", "main_view"]

/-- The hints that mark a system asset. -/
def systemCategories : List String := ["system", "platform", "infra"]

/-- `system_keywords`. -/
def systemKeywords : List String :=
  ["hmn", "control", "console", "gateway", "agent", "worker", "heartbeat", "orchestrator",
    "platform", "system", "infra"]

/-- `combined_text`. -/
def combinedText (service : ServiceRecord) : String :=
  Text.join " " (([service.serviceId, service.name, service.nodeId, service.kind,
    service.runtime].filter (· ≠ "")).map Text.lower)

/-- `bump`, under a condition. -/
def bump (condition : Bool) (value : Int) (reason : String) : List (Int × String) :=
  if condition then [(value, reason)] else []

/-- The bumps the hint `raw` gives. -/
def hintBumps (raw : String) : List (Int × String) :=
  bump (raw ∈ businessCategories) 30 ("asset_category=" ++ raw)
    ++ bump (raw ∈ systemCategories) (-80) ("asset_category=" ++ raw)

/-- The bumps after the hint. -/
def signalBumps (service : ServiceRecord) : List (Int × String) :=
  bump (service.domains ≠ []) 18 (toString service.domains.length ++ " domain(s)")
    ++ bump (service.ports ≠ []) 12 (toString service.ports.length ++ " exposed port(s)")
    ++ bump (service.healthCheckUrl ≠ "") 8 "health check configured"
    ++ bump (service.deployPath ≠ "") 6 "deploy path present"
    ++ bump (service.configPaths ≠ [] ∨ service.envPaths ≠ [] ∨ service.dataPaths ≠ []) 6
      "service paths registered"
    ++ bump service.monitorEnabled 5 "monitoring enabled"
    ++ bump (service.source ≠ "" ∧ service.source ≠ "manual") 8
      ("discovered source=" ++ service.source)
    ++ bump (systemKeywords.any (Text.contains (combinedText service))) (-40)
      "system/control-plane keyword match"

/-- Every bump, in order. -/
def assetBumps (service : ServiceRecord) : List (Int × String) :=
  bump (service.source = "manual") 60 "manual asset registration"
    ++ hintBumps (rawCategory service.metadata) ++ signalBumps service

/-- The category of a score. -/
def assetCategory (source raw : String) (score : Int) : String :=
  if source = "manual" ∨ raw ∈ businessCategories then "main"
  else if raw ∈ systemCategories ∨ score < 0 then "system"
  else if score ≥ 40 then "main"
  else if score ≥ 15 then "pending"
  else if score < 0 then "system"
  else "pending"

/-- `_classify_service_asset`. -/
def classifyServiceAsset (service : ServiceRecord) : Int × String × List String :=
  let bumps := assetBumps service
  let score := (bumps.map Prod.fst).sum
  let reasons := bumps.map Prod.snd
  (max (-100) (min 100 score), assetCategory service.source (rawCategory service.metadata) score,
    if reasons = [] then ["insufficient asset signals"] else reasons)

/-! ## §3. Saving and loading. -/

/-- `d.setdefault(key, value)`. -/
def setDefault (d : Dict) (key : String) (value : Json) : Dict :=
  if (d.get? key).isSome then d else d ++ [(key, value)]

theorem get?_setDefault (d : Dict) (l : String) (v : Json) (k : String) :
    (setDefault d l v).get? k = if k = l ∧ d.get? l = none then some v else d.get? k := by
  unfold setDefault
  cases h : d.get? l with
  | some w => simp
  | none =>
    simp only [Option.isSome_none, Bool.false_eq_true, if_false, and_true]
    exact Dict.get?_append_single d l v k h

/-- The metadata with the result of a classification where no key stands in
its way. -/
def withAsset (metadata : Dict) (asset : Int × String × List String) : Dict :=
  setDefault (setDefault (setDefault metadata "asset_score" (.int asset.1))
    "asset_category" (.str asset.2.1)) "why_asset" (.arr (asset.2.2.map .str))

/-- The record `save_service_record` returns. -/
def savedService (now : Timestamp) (existing : Option ServiceRecord) (service : ServiceRecord) :
    ServiceRecord :=
  let asset := classifyServiceAsset service
  { service with
    metadata := withAsset service.metadata asset
    assetScore := asset.1
    assetCategory := asset.2.1
    whyAsset := asset.2.2
    createdAt := some ((service.createdAt.or (existing.bind ServiceRecord.createdAt)).getD now)
    updatedAt := some now }

/-- The row an upsert of `saved` leaves: the time of creation is not updated. -/
def serviceRow (existing : Option ServiceRecord) (saved : ServiceRecord) : ServiceRecord :=
  { saved with
    metadata := saved.metadata.sortKeys
    createdAt := match existing with
      | some row => row.createdAt
      | none => saved.createdAt }

namespace ServiceTable

/-- `save_service_record`. -/
def saveServiceRecord (now : Timestamp) (service : ServiceRecord) (services : ServiceTable) :
    ServiceRecord × ServiceTable :=
  let existing := services.find? service.serviceId
  let saved := savedService now existing service
  (saved, services.upsert (serviceRow existing saved))

/-- `load_service_record`. -/
def loadServiceRecord (serviceId : String) (services : ServiceTable) : Option ServiceRecord :=
  services.find? serviceId

end ServiceTable

end Hmn
