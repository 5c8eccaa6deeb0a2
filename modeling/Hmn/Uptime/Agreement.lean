/-
  Hmn.Uptime.Agreement — when the uptime plan and the monitors agree.

  The plan reads the exposure, the strategy and the keyword, and it trims its
  texts; the monitors know the flag and the raw URL only.  A service's
  monitor is planned with its URL exactly when nothing that the monitors do
  not look at says otherwise.

  Main results: `uptimeEntry_url_iff` (one service) and
  `uptime_views_agree_iff`.
-/
import Hmn.Uptime.Plan

namespace Hmn

open Framework

/-! ## §1. What the plan reads of a stored service. -/

/-- The URL of the health check as the plan reads it. -/
def plannedHealthUrl (alnum : Char → Bool) (service : ServiceRecord) : String :=
  if service.healthCheckUrl ≠ "" then Text.strip service.healthCheckUrl
  else planHealthCheckUrl (sanitizeFields alnum service.metadata)

theorem planHealthCheckUrl_monitorMetadata (alnum : Char → Bool) (service : ServiceRecord) :
    planHealthCheckUrl (monitorMetadata alnum service) = plannedHealthUrl alnum service := by
  unfold monitorMetadata plannedHealthUrl planHealthCheckUrl
  dsimp only
  split
  · rename_i hurl
    have htext : Json.truthy (.str service.healthCheckUrl) = true := decide_eq_true hurl
    rw [Dict.getStr, Dict.get?_set_self]
    simp only [htext, if_true, Json.asStr_str]
  · rfl

theorem exposureScope_monitorMetadata (alnum : Char → Bool) (service : ServiceRecord) :
    exposureScope (monitorMetadata alnum service)
      = exposureScope (sanitizeFields alnum service.metadata) := by
  have hget : (monitorMetadata alnum service).get? "exposure"
      = Dict.get? (sanitizeFields alnum service.metadata) "exposure" := by
    unfold monitorMetadata
    dsimp only
    split
    · exact Dict.get?_set_of_ne _ _ (by decide)
    · rfl
  simp only [exposureScope, dictAt, hget]

theorem dictAt_monitorPayload (alnum : Char → Bool) (service : ServiceRecord) :
    dictAt (monitorPayloadFromStorage alnum service) "metadata" = monitorMetadata alnum service := by
  unfold dictAt monitorPayloadFromStorage
  rw [Dict.get?_set_self]

/-- The monitor of a stored service keeps what its metadata say of it, except
for four keys. -/
theorem getStr_monitorPayload (alnum : Char → Bool) (service : ServiceRecord) {key : String}
    (hkey : key ∉ ["providers", "enabled", "registry_status", "metadata"]) :
    (monitorPayloadFromStorage alnum service).getStr key ""
      = (dictAt service.metadata "monitor").getStr key "" := by
  simp only [List.mem_cons, List.not_mem_nil, or_false, not_or] at hkey
  obtain ⟨hproviders, henabled, hstatus, hmetadata⟩ := hkey
  unfold monitorPayloadFromStorage
  dsimp only
  rw [Dict.getStr_set_of_ne _ _ _ hmetadata, Dict.getStr_set_of_ne _ _ _ hstatus, Dict.getStr,
    get?_setDefault, if_neg (fun h => henabled h.1), ← Dict.getStr]
  split
  · exact Dict.getStr_set_of_ne _ _ _ hproviders
  · rfl

/-! ## §2. One service. -/

/-- The condition under which the monitor of a service is planned with its
URL. -/
structure MonitorAgrees (alnum : Char → Bool) (service : ServiceRecord) : Prop where
  visible : exposureScope (sanitizeFields alnum service.metadata)
    ∉ ["internal-only", "status-page"]
  strategy : monitorStrategy (dictAt service.metadata "monitor") ≠ "ping"
  reachable : firstDomain service.domains ≠ none
    ∨ (monitorKeyword (dictAt service.metadata "monitor") ≠ ""
      ∧ plannedHealthUrl alnum service ≠ "")
  url :
    if service.healthCheckUrl ≠ "" then Text.strip service.healthCheckUrl = service.healthCheckUrl
    else if plannedHealthUrl alnum service ≠ "" then
      service.domains.head?.map ("https://" ++ ·) = some (plannedHealthUrl alnum service)
    else firstDomain service.domains = service.domains.head?

/-- The URL that is planned for a service. -/
def plannedUrl (alnum : Char → Bool) (service : ServiceRecord) : Option String :=
  (uptimeEntry (serviceRecordFromStorage alnum service)).getLeft?.bind fun entry =>
    entry.monitor.url?

theorem plannedUrl_eq (alnum : Char → Bool) (service : ServiceRecord) :
    plannedUrl alnum service =
      if exposureScope (sanitizeFields alnum service.metadata) ∈ ["internal-only", "status-page"]
        ∨ monitorStrategy (dictAt service.metadata "monitor") = "ping" then none
      else
        match firstDomain service.domains with
        | some domain =>
          some (if plannedHealthUrl alnum service ≠ "" then plannedHealthUrl alnum service
            else "https://" ++ domain)
        | none =>
          if monitorKeyword (dictAt service.metadata "monitor") ≠ ""
            ∧ plannedHealthUrl alnum service ≠ "" then some (plannedHealthUrl alnum service)
          else none := by
  have hstrategy : monitorStrategy (monitorPayloadFromStorage alnum service)
      = monitorStrategy (dictAt service.metadata "monitor") := by
    rw [monitorStrategy, getStr_monitorPayload alnum service (by decide), monitorStrategy]
  have hkeyword : monitorKeyword (monitorPayloadFromStorage alnum service)
      = monitorKeyword (dictAt service.metadata "monitor") := by
    rw [monitorKeyword, getStr_monitorPayload alnum service (by decide), monitorKeyword]
  simp only [plannedUrl, uptimeEntry, serviceRecordFromStorage, dictAt_monitorPayload,
    exposureScope_monitorMetadata, planHealthCheckUrl_monitorMetadata, hstrategy, hkeyword]
  generalize exposureScope (sanitizeFields alnum service.metadata) = scope
  generalize monitorStrategy (dictAt service.metadata "monitor") = strategy
  generalize monitorKeyword (dictAt service.metadata "monitor") = keyword
  generalize plannedHealthUrl alnum service = url
  by_cases hinternal : scope = "internal-only"
  · simp [hinternal]
  by_cases hstatus : scope = "status-page"
  · simp [hstatus]
  by_cases hping : strategy = "ping"
  · simp [hinternal, hstatus, hping, MonitorSpec.url?]
  simp only [hinternal, hstatus, hping, List.mem_cons, List.not_mem_nil, or_self, if_false]
  cases firstDomain service.domains with
  | some domain => by_cases hkey : keyword = "" <;> simp [hkey, MonitorSpec.url?]
  | none =>
    by_cases hkey : keyword ≠ "" ∧ url ≠ ""
    · simp [hkey, MonitorSpec.url?]
    · simp only [hkey, if_false]
      cases service.ports <;> rfl

/-- A text of blanks starts with no letter. -/
theorem strip_https_ne (domain : String) : Text.strip ("https://" ++ domain) ≠ "" := by
  intro h
  have hnil : Text.stripChars ("https://" ++ domain).toList = [] := by
    have hlist := congrArg String.toList h
    rwa [Text.strip, String.toList_ofList] at hlist
  obtain ⟨pre, post, heq, hpre, hpost⟩ := Text.stripChars_eq ("https://" ++ domain).toList
  rw [hnil, List.append_nil] at heq
  have hmem : 'h' ∈ pre ++ post := heq ▸ by simp
  have hspace : Text.isSpace 'h' = true :=
    (List.mem_append.mp hmem).elim (fun h => hpre _ h) (fun h => hpost _ h)
  exact absurd hspace (by decide)

/-- **One service**: its monitor's URL is planned exactly under the
condition. -/
theorem plannedUrl_eq_target_iff (alnum : Char → Bool) {service : ServiceRecord}
    (htarget : service.healthCheckUrl ≠ "" ∨ service.domains ≠ []) :
    plannedUrl alnum service = some (monitorTarget service) ↔ MonitorAgrees alnum service := by
  have hiff : MonitorAgrees alnum service ↔ _ ∧ _ ∧ _ ∧ _ :=
    ⟨fun h => ⟨h.visible, h.strategy, h.reachable, h.url⟩, fun h => ⟨h.1, h.2.1, h.2.2.1, h.2.2.2⟩⟩
  rw [hiff, plannedUrl_eq]
  by_cases hhidden : exposureScope (sanitizeFields alnum service.metadata)
      ∈ ["internal-only", "status-page"]
  · simp [hhidden]
  by_cases hping : monitorStrategy (dictAt service.metadata "monitor") = "ping"
  · simp [hping]
  simp only [hhidden, hping, or_self, if_false, not_false_eq_true, ne_eq, true_and]
  by_cases hurl : service.healthCheckUrl = ""
  · -- the first domain is asked for
    obtain ⟨domain, domains, hdomains⟩ :=
      List.exists_cons_of_ne_nil (htarget.resolve_left (not_not_intro hurl))
    have hmonitor : monitorTarget service = "https://" ++ domain := by
      simp [monitorTarget, hurl, hdomains]
    simp only [hmonitor, hurl, hdomains, List.head?_cons, Option.map_some, not_true, if_false,
      Option.some.injEq]
    generalize plannedHealthUrl alnum service = url
    cases firstDomain (domain :: domains) with
    | some first =>
      by_cases hne : url = ""
      · simp [hne]
      · simpa [hne] using eq_comm
    | none =>
      by_cases hne : url = ""
      · simp [hne]
      · simpa [hne] using fun _ => eq_comm
  · -- the health check is asked for, as it stands
    have hmonitor : monitorTarget service = service.healthCheckUrl := if_pos hurl
    have hplanned : plannedHealthUrl alnum service = Text.strip service.healthCheckUrl := if_pos hurl
    simp only [hmonitor, hplanned, hurl, not_false_eq_true, if_true]
    by_cases hblank : Text.strip service.healthCheckUrl = ""
    · have hne : ¬ "" = service.healthCheckUrl := fun h => hurl h.symm
      have hdomain (first : String) : "https://" ++ first ≠ service.healthCheckUrl := by
        rintro heq
        rw [← heq] at hblank
        exact strip_https_ne first hblank
      cases firstDomain service.domains <;> simp [hblank, hne, hdomain]
    · cases firstDomain service.domains <;> simp [hblank]

/-! ## §3. All services. -/

/-- No service that is skipped is among the monitors, and every monitor is
planned with its URL. -/
def PlanAgrees (plan : UptimePlan) (monitors : List UptimeMonitor) : Prop :=
  (∀ monitor ∈ monitors, ∀ entry ∈ plan.skip, entry.serviceId ≠ monitor.serviceId)
    ∧ ∀ monitor ∈ monitors, ∃ entry ∈ plan.create,
      entry.serviceId = monitor.serviceId ∧ entry.monitor.url? = some monitor.url

theorem mem_listServiceRecords {services : ServiceTable} {service : ServiceRecord} :
    service ∈ services.listServiceRecords ↔ service ∈ services.rows :=
  (List.perm_insertionSort _ services.rows).mem_iff

theorem mem_uptimeMonitors {services : ServiceTable} {monitor : UptimeMonitor} :
    monitor ∈ uptimeMonitors services ↔
      ∃ service ∈ services.rows, uptimeMonitorForService service = some monitor := by
  rw [uptimeMonitors, List.mem_filterMap]
  simp only [mem_listServiceRecords]

/-- The entries of the plan are those of the stored services. -/
theorem mem_entries {alnum : Char → Bool} {services : ServiceTable}
    {entry : CreateEntry ⊕ SkipEntry} :
    entry ∈ ((registryFromStorageRecords alnum services.listServiceRecords).listServices.insertionSort
        planOrder).map uptimeEntry
      ↔ ∃ service ∈ services.rows, uptimeEntry (serviceRecordFromStorage alnum service) = entry := by
  rw [List.mem_map]
  simp only [List.mem_insertionSort, listServices_fromStorage, List.mem_map, mem_listServiceRecords]
  constructor
  · rintro ⟨_, ⟨service, hmem, rfl⟩, hentry⟩
    exact ⟨service, hmem, hentry⟩
  · rintro ⟨service, hmem, hentry⟩
    exact ⟨_, ⟨service, hmem, rfl⟩, hentry⟩

theorem mem_create {alnum : Char → Bool} {services : ServiceTable} {entry : CreateEntry} :
    entry ∈ (uptimePlan alnum services).1.create ↔
      ∃ service ∈ services.rows,
        uptimeEntry (serviceRecordFromStorage alnum service) = .inl entry := by
  simp only [uptimePlan, buildUptimePlan, List.mem_insertionSort, List.mem_filterMap,
    Sum.getLeft?_eq_some_iff, exists_eq_right]
  exact mem_entries

theorem mem_skip {alnum : Char → Bool} {services : ServiceTable} {entry : SkipEntry} :
    entry ∈ (uptimePlan alnum services).1.skip ↔
      ∃ service ∈ services.rows,
        uptimeEntry (serviceRecordFromStorage alnum service) = .inr entry := by
  simp only [uptimePlan, buildUptimePlan, List.mem_filterMap, Sum.getRight?_eq_some_iff,
    exists_eq_right]
  exact mem_entries

/-- An entry is about its service. -/
theorem uptimeEntry_serviceId (service : RegistryService) :
    (∀ entry, uptimeEntry service = .inl entry → entry.serviceId = service.serviceId)
      ∧ ∀ entry, uptimeEntry service = .inr entry → entry.serviceId = service.serviceId := by
  unfold uptimeEntry
  dsimp only
  constructor
  all_goals
    intro entry
    repeat' split
    all_goals
      intro h
      cases h
      try rfl

theorem uptimeMonitorForService_eq_some {service : ServiceRecord} {monitor : UptimeMonitor} :
    uptimeMonitorForService service = some monitor ↔
      (service.monitorEnabled = true ∧ (service.healthCheckUrl ≠ "" ∨ service.domains ≠ []))
        ∧ monitor = ⟨service.serviceId, service.name, monitorTarget service,
          ["hmn", "service:" ++ service.serviceId]⟩ := by
  have htarget : monitorTarget service ≠ "" ↔ service.healthCheckUrl ≠ "" ∨ service.domains ≠ [] := by
    unfold monitorTarget
    by_cases hurl : service.healthCheckUrl = ""
    · cases service.domains <;> simp [hurl]
    · simp [hurl]
  unfold uptimeMonitorForService
  dsimp only
  by_cases hnone : monitorTarget service = "" ∨ service.monitorEnabled = false
  · rw [if_pos hnone, ← htarget]
    constructor
    · exact nofun
    · rintro ⟨⟨henabled, hne⟩, -⟩
      rcases hnone with hempty | hdisabled
      · exact absurd hempty hne
      · exact absurd (henabled.symm.trans hdisabled) nofun
  · rw [if_neg hnone, ← htarget]
    rw [not_or, Bool.not_eq_false] at hnone
    rw [Option.some.injEq, eq_comm]
    exact ⟨fun h => ⟨⟨hnone.2, hnone.1⟩, h⟩, fun h => h.2⟩

/-- **When the two views agree.**  The plan and the monitors that are shown,
and those that are submitted, agree if and only if every service that is
monitored and has something to monitor meets the condition. -/
theorem uptime_views_agree_iff (alnum : Char → Bool) (services : ServiceTable) :
    (PlanAgrees (uptimePlan alnum services).1 (uptimePlan alnum services).2
      ∧ PlanAgrees (uptimePlan alnum services).1 (uptimeSync services))
    ↔ ∀ service ∈ services.rows, service.monitorEnabled = true →
        (service.healthCheckUrl ≠ "" ∨ service.domains ≠ []) → MonitorAgrees alnum service := by
  have hone : PlanAgrees (uptimePlan alnum services).1 (uptimeMonitors services)
      ↔ ∀ service ∈ services.rows, service.monitorEnabled = true →
        (service.healthCheckUrl ≠ "" ∨ service.domains ≠ []) → MonitorAgrees alnum service := by
    constructor
    · rintro ⟨-, hcreated⟩ service hmem henabled htarget
      obtain ⟨entry, hentry, hid, hurl⟩ := hcreated _ (mem_uptimeMonitors.mpr
        ⟨service, hmem, uptimeMonitorForService_eq_some.mpr ⟨⟨henabled, htarget⟩, rfl⟩⟩)
      obtain ⟨service', hmem', hplanned⟩ := mem_create.mp hentry
      have hid' := (uptimeEntry_serviceId _).1 entry hplanned
      have hsame : service' = service := services.eq_of_key_eq hmem' hmem (hid'.symm.trans hid)
      subst hsame
      refine (plannedUrl_eq_target_iff alnum htarget).mp ?_
      rw [plannedUrl, hplanned]
      exact hurl
    · rintro hall
      have hplanned : ∀ monitor ∈ uptimeMonitors services, ∃ service ∈ services.rows, ∃ entry,
          uptimeEntry (serviceRecordFromStorage alnum service) = .inl entry
            ∧ service.serviceId = monitor.serviceId ∧ entry.monitor.url? = some monitor.url := by
        rintro monitor hmonitor
        obtain ⟨service, hmem, hsome⟩ := mem_uptimeMonitors.mp hmonitor
        obtain ⟨⟨henabled, htarget⟩, rfl⟩ := uptimeMonitorForService_eq_some.mp hsome
        have hurl := (plannedUrl_eq_target_iff alnum htarget).mpr
          (hall service hmem henabled htarget)
        obtain ⟨entry, hentry, hurl⟩ := Option.bind_eq_some_iff.mp hurl
        exact ⟨service, hmem, entry, Sum.getLeft?_eq_some_iff.mp hentry, rfl, hurl⟩
      constructor
      · rintro monitor hmonitor skipped hskipped hid
        obtain ⟨service, hmem, entry, hentry, hkey, -⟩ := hplanned monitor hmonitor
        obtain ⟨service', hmem', hskip⟩ := mem_skip.mp hskipped
        have hid' := (uptimeEntry_serviceId _).2 skipped hskip
        have hsame : service' = service :=
          services.eq_of_key_eq hmem' hmem (hid'.symm.trans (hid.trans hkey.symm))
        subst hsame
        exact absurd (hskip.symm.trans hentry) nofun
      · rintro monitor hmonitor
        obtain ⟨service, hmem, entry, hentry, hkey, hurl⟩ := hplanned monitor hmonitor
        exact ⟨entry, mem_create.mpr ⟨service, hmem, hentry⟩,
          ((uptimeEntry_serviceId _).1 entry hentry).trans hkey, hurl⟩
  exact ⟨fun h => hone.mp h.1, fun h => ⟨hone.mpr h, hone.mpr h⟩⟩

/-- A service that is monitored and only for the inside. -/
def internalApi : ServiceRecord where
  serviceId := "svc_node-a_api"
  name := "api"
  nodeId := "node-a"
  healthCheckUrl := "http://10.0.0.5/health"
  monitorEnabled := true
  metadata := [("exposure", .obj [("scope", .str "internal-only")])]

/-- It is skipped, and submitted all the same. -/
theorem internalApi_submitted :
    ¬ (PlanAgrees (uptimePlan Regex.isAlnum (.single internalApi)).1
        (uptimePlan Regex.isAlnum (.single internalApi)).2
      ∧ PlanAgrees (uptimePlan Regex.isAlnum (.single internalApi)).1
        (uptimeSync (.single internalApi))) := by
  rintro ⟨-, hskipped, -⟩
  have hskip : (⟨"svc_node-a_api", "api", "internal-only service"⟩ : SkipEntry)
      ∈ (uptimePlan Regex.isAlnum (.single internalApi)).1.skip := by decide +kernel
  have hmonitor : (⟨"svc_node-a_api", "api", "http://10.0.0.5/health",
      ["hmn", "service:svc_node-a_api"]⟩ : UptimeMonitor) ∈ uptimeSync (.single internalApi) := by
    decide +kernel
  exact hskipped _ hmonitor _ hskip rfl

end Hmn
