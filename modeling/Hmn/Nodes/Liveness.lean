/-
  Hmn.Nodes.Liveness — three views of whether a node is alive.

  The command line, the console and the monitor each climb down a ladder of
  their own: the outcome of the newest heartbeat, then its age against 300
  and 900 seconds.  The command line and the monitor ask for the outcome
  first and take the heartbeat stored last; the console asks for the age
  and takes the heartbeat with the latest time.

  Main results: `state_eq`, `consoleLive_eq`, `health_eq` (each ladder by the
  rung its heartbeat stands on) and `liveness_views_agree_iff`.
-/
import Hmn.Store.Seconds
import Hmn.Store.Store

namespace Hmn

open Framework

/-! ## §1. The three ladders. -/

/-- `int((now - event.created_at).total_seconds())`. -/
def ageSeconds (now : Timestamp) (event : AuditEvent) : Int :=
  Timestamp.wholeSeconds (now - event.createdAt)

/-- `_latest_heartbeat_event` of the command line: the one stored last. -/
def Store.lastHeartbeatEvent (s : Store) (nodeId : String) : Option AuditEvent :=
  s.audit.reverse.find? fun event =>
    event.eventType = "node" ∧ event.subjectId = nodeId ∧ event.action = "heartbeat"

/-- What `_node_liveness` and the console call a node. -/
inductive Live where
  | unknown
  | online
  | stale
  | offline
  deriving DecidableEq

/-- The result of `_node_liveness`. -/
structure NodeLiveness where
  state : Live
  reason : String
  lastHeartbeat : String
  ageSeconds : Option Int
  deriving DecidableEq

/-- `_node_liveness`. -/
def nodeLiveness (s : Store) (nodeId : String) (now : Timestamp) : NodeLiveness :=
  match s.lastHeartbeatEvent nodeId with
  | none => ⟨.offline, "missing_heartbeat", "", none⟩
  | some event =>
    let age := ageSeconds now event
    let (state, reason) :=
      if event.outcome ≠ "ok" then (Live.stale, "heartbeat_warn")
      else if age ≤ 300 then (.online, "fresh_heartbeat")
      else if age ≤ 900 then (.stale, "stale_heartbeat")
      else (.offline, "heartbeat_timeout")
    ⟨state, reason, event.createdAt.isoformat, some age⟩

/-- The field `live` of `_console_node_response`. -/
def consoleLive (s : Store) (node : Node) (now : Timestamp) : Live :=
  let event := s.latestNodeHeartbeatEvent node.nodeId
  let age := event.map (ageSeconds now)
  if node.status = .pending then .unknown
  else
    match event, age with
    | some event, some age =>
      if event.outcome = "ok" ∧ age ≤ 300 then .online
      else if age ≤ 900 then .stale
      else .offline
    | _, _ => .offline

/-- The health of a node in the monitor. -/
inductive Health where
  | ok
  | warn
  | critical
  deriving DecidableEq

/-- The fields of `_monitor_health_summary` that tell how a node is. -/
structure MonitorHealth where
  health : Health
  reason : String
  ageSeconds : Option Int
  workerCompatible : Bool
  heartbeatDatetime : Option Timestamp
  deriving DecidableEq

/-- `bool(event.details.get("worker_compatible", True))`. -/
def workerCompatible (event : AuditEvent) : Bool :=
  ((event.details.get? "worker_compatible").getD (.bool true)).truthy

/-- The ladder of `_monitor_health_summary`. -/
def monitorHealth (s : Store) (nodeId : String) (now : Timestamp) : MonitorHealth :=
  match s.lastHeartbeatEvent nodeId with
  | none => ⟨.critical, "missing_heartbeat", none, false, none⟩
  | some event =>
    let age := ageSeconds now event
    let (health, reason) :=
      if ¬ workerCompatible event then (Health.critical, "worker_protocol_incompatible")
      else if event.outcome ≠ "ok" then (.warn, "heartbeat_warn")
      else if age > 900 then (.critical, "heartbeat_timeout")
      else if age > 300 then (.warn, "stale_heartbeat")
      else (.ok, "fresh_heartbeat")
    ⟨health, reason, some age, workerCompatible event, some event.createdAt⟩

/-! ## §2. Rungs. -/

/-- How old a heartbeat is: the better rung comes first. -/
inductive Rung where
  | fresh
  | aging
  | lapsed
  deriving DecidableEq

/-- Worse rungs are greater. -/
def Rung.rank : Rung → Nat
  | .fresh => 0
  | .aging => 1
  | .lapsed => 2

/-- The rung of a heartbeat: `ok` and at most 300 whole seconds old, or at
most 900, or older. -/
def rung (now : Timestamp) : Option AuditEvent → Rung
  | none => .lapsed
  | some event =>
    if event.outcome = "ok" ∧ ageSeconds now event ≤ 300 then .fresh
    else if ageSeconds now event ≤ 900 then .aging
    else .lapsed

/-- What the command line and the console call a rung. -/
def Rung.live : Rung → Live
  | .fresh => .online
  | .aging => .stale
  | .lapsed => .offline

/-- What the monitor calls it. -/
def Live.health : Live → Health
  | .online => .ok
  | .stale => .warn
  | .offline | .unknown => .critical

/-- The rung on which the command line and the monitor see a heartbeat:
without `ok` its age is not asked for. -/
def cliRung (now : Timestamp) : Option AuditEvent → Rung
  | none => .lapsed
  | some event => if event.outcome ≠ "ok" then .aging else rung now (some event)

theorem consoleLive_eq {s : Store} {node : Node} {now : Timestamp} (h : node.status ≠ .pending) :
    consoleLive s node now = (rung now (s.latestNodeHeartbeatEvent node.nodeId)).live := by
  simp only [consoleLive, if_neg h]
  cases s.latestNodeHeartbeatEvent node.nodeId with
  | none => rfl
  | some event =>
    simp only [Option.map_some, rung]
    split
    · rfl
    · split <;> rfl

theorem state_eq (s : Store) (nodeId : String) (now : Timestamp) :
    (nodeLiveness s nodeId now).state = (cliRung now (s.lastHeartbeatEvent nodeId)).live := by
  unfold nodeLiveness
  cases s.lastHeartbeatEvent nodeId with
  | none => rfl
  | some event =>
    by_cases hok : event.outcome = "ok"
    · simp only [cliRung, rung, hok, ne_eq, not_true, if_false, true_and]
      split
      · rfl
      · split <;> rfl
    · simp only [cliRung, ne_eq, hok, not_false_eq_true, if_true]
      rfl

/-- **The command line and the monitor agree** on every node whose worker is
compatible. -/
theorem health_eq {s : Store} {nodeId : String} (now : Timestamp)
    (h : ∀ event, s.lastHeartbeatEvent nodeId = some event → workerCompatible event = true) :
    (monitorHealth s nodeId now).health = (nodeLiveness s nodeId now).state.health := by
  unfold monitorHealth nodeLiveness
  cases hevent : s.lastHeartbeatEvent nodeId with
  | none => rfl
  | some event =>
    simp only [h event hevent, not_true, if_false]
    by_cases hok : event.outcome = "ok"
    · simp only [hok, ne_eq, not_true, if_false]
      by_cases h300 : ageSeconds now event ≤ 300
      · have h900 : ¬ ageSeconds now event > 900 := by omega
        have hfresh : ¬ ageSeconds now event > 300 := by omega
        simp only [if_pos h300, if_neg h900, if_neg hfresh]
        rfl
      · have hage : ageSeconds now event > 300 := by omega
        by_cases h900 : ageSeconds now event ≤ 900
        · have hlate : ¬ ageSeconds now event > 900 := by omega
          simp only [if_neg h300, if_pos h900, if_neg hlate, if_pos hage]
          rfl
        · have hlate : ageSeconds now event > 900 := by omega
          simp only [if_neg h300, if_neg h900, if_pos hlate]
          rfl
    · simp only [ne_eq, hok, not_false_eq_true, if_true]
      rfl

/-! ## §3. Time passes. -/

theorem ageSeconds_le_iff {now : Timestamp} {event : AuditEvent} {n : Nat} (hn : n < 2 ^ 20) :
    ageSeconds now event ≤ n ↔ now - event.createdAt < seconds (n + 1) :=
  Timestamp.wholeSeconds_le_iff hn

/-- A heartbeat only climbs down. -/
theorem rung_mono {t1 t2 : Timestamp} (h : t1 ≤ t2) (event : Option AuditEvent) :
    (rung t1 event).rank ≤ (rung t2 event).rank := by
  cases event with
  | none => exact le_refl _
  | some event =>
    have hage (n : Nat) (hn : n < 2 ^ 20) (h2 : ageSeconds t2 event ≤ n) :
        ageSeconds t1 event ≤ n := by
      rw [ageSeconds_le_iff hn] at h2 ⊢
      unfold Timestamp at *
      omega
    have h300 : ageSeconds t2 event ≤ 300 → ageSeconds t1 event ≤ 300 := hage 300 (by decide)
    have h900 : ageSeconds t2 event ≤ 900 → ageSeconds t1 event ≤ 900 := hage 900 (by decide)
    simp only [rung]
    by_cases hfresh : event.outcome = "ok" ∧ ageSeconds t2 event ≤ 300
    · rw [if_pos hfresh, if_pos ⟨hfresh.1, h300 hfresh.2⟩]
    · rw [if_neg hfresh]
      by_cases haging : ageSeconds t2 event ≤ 900
      · rw [if_pos haging]
        split
        · exact Nat.zero_le _
        · rw [if_pos (h900 haging)]
      · rw [if_neg haging]
        split
        · exact Nat.zero_le _
        · split
          · exact Nat.le_succ _
          · exact le_refl _

theorem cliRung_mono {t1 t2 : Timestamp} (h : t1 ≤ t2) (event : Option AuditEvent) :
    (cliRung t1 event).rank ≤ (cliRung t2 event).rank := by
  cases event with
  | none => exact le_refl _
  | some event =>
    simp only [cliRung]
    split
    · exact le_refl _
    · exact rung_mono h (some event)

/-! ## §4. When the views agree. -/

/-- What a node is called, from the best to the worst. -/
def Live.rank : Live → Nat
  | .online => 0
  | .stale => 1
  | .offline => 2
  | .unknown => 3

def Health.rank : Health → Nat
  | .ok => 0
  | .warn => 1
  | .critical => 2

theorem Rung.rank_live (r : Rung) : r.live.rank = r.rank := by cases r <;> rfl

/-- The newest heartbeat, if there is one, is more than 900 seconds old. -/
def Silent (s : Store) (nodeId : String) (now : Timestamp) : Prop :=
  ∀ event, s.latestNodeHeartbeatEvent nodeId = some event → seconds 900 < now - event.createdAt

/-- The views of a node at two instants, with no heartbeat in between. -/
structure LivenessViewsAgree (s : Store) (node : Node) (t1 t2 : Timestamp) : Prop where
  console : ∀ t ∈ [t1, t2], consoleLive s node t = (nodeLiveness s node.nodeId t).state
  monitor : (∀ event, s.lastHeartbeatEvent node.nodeId = some event → workerCompatible event = true) →
    ∀ t ∈ [t1, t2], (monitorHealth s node.nodeId t).health
      = (nodeLiveness s node.nodeId t).state.health
  stateDecays : (nodeLiveness s node.nodeId t1).state.rank ≤ (nodeLiveness s node.nodeId t2).state.rank
  consoleDecays : (consoleLive s node t1).rank ≤ (consoleLive s node t2).rank
  monitorDecays : (monitorHealth s node.nodeId t1).health.rank
    ≤ (monitorHealth s node.nodeId t2).health.rank
  lapses : ∀ t ∈ [t1, t2], Silent s node.nodeId t →
    (nodeLiveness s node.nodeId t).state = .offline ∧ consoleLive s node t = .offline
      ∧ (monitorHealth s node.nodeId t).health = .critical

/-- What the heartbeats have to be like at an instant: the newest one is not
in its 901st second, and it is on the rung of the one stored last, or within
900 seconds and not fresh if that one is not `ok`. -/
structure WithinLimits (s : Store) (nodeId : String) (now : Timestamp) : Prop where
  wholeSecond : ∀ event, s.latestNodeHeartbeatEvent nodeId = some event →
    seconds 900 < now - event.createdAt → seconds 901 ≤ now - event.createdAt
  stored : ∀ event, s.lastHeartbeatEvent nodeId = some event → event.outcome = "ok" →
    rung now (s.latestNodeHeartbeatEvent nodeId) = rung now (some event)
  warned : ∀ event, s.lastHeartbeatEvent nodeId = some event → event.outcome ≠ "ok" →
    rung now (s.latestNodeHeartbeatEvent nodeId) = .aging

/-- A heartbeat the console reads is one the command line finds. -/
theorem lastHeartbeatEvent_ne_none {s : Store} {nodeId : String} {event : AuditEvent}
    (h : s.latestNodeHeartbeatEvent nodeId = some event) : s.lastHeartbeatEvent nodeId ≠ none := by
  have hmem := List.argmax_mem (Option.mem_def.mpr h)
  rw [List.mem_reverse, List.mem_filter] at hmem
  intro hnone
  have hno := List.find?_eq_none.mp hnone event (List.mem_reverse.mpr hmem.1)
  simp only [decide_eq_true_eq] at hmem hno
  exact hno ⟨hmem.2.1, hmem.2.2.2⟩

/-- The limits hold exactly when both heartbeats are on one rung, outside the
901st second. -/
theorem withinLimits_iff {s : Store} {nodeId : String} {now : Timestamp} :
    WithinLimits s nodeId now
      ↔ rung now (s.latestNodeHeartbeatEvent nodeId) = cliRung now (s.lastHeartbeatEvent nodeId)
        ∧ ∀ event, s.latestNodeHeartbeatEvent nodeId = some event →
          seconds 900 < now - event.createdAt → seconds 901 ≤ now - event.createdAt := by
  constructor
  · intro h
    refine ⟨?_, h.wholeSecond⟩
    cases hlast : s.lastHeartbeatEvent nodeId with
    | none =>
      cases hnewest : s.latestNodeHeartbeatEvent nodeId with
      | none => rfl
      | some event => exact absurd hlast (lastHeartbeatEvent_ne_none hnewest)
    | some event =>
      by_cases hok : event.outcome = "ok"
      · rw [h.stored event hlast hok, cliRung, if_neg (not_not.mpr hok)]
      · rw [h.warned event hlast hok, cliRung, if_pos hok]
  · rintro ⟨hrung, hsecond⟩
    refine ⟨hsecond, fun event hlast hok => ?_, fun event hlast hok => ?_⟩
    · rw [hrung, hlast, cliRung, if_neg (not_not.mpr hok)]
    · rw [hrung, hlast, cliRung, if_pos hok]

theorem Rung.live_injective {r r' : Rung} (h : r.live = r'.live) : r = r' := by
  cases r <;> cases r' <;> first | rfl | cases h

/-- A heartbeat has lapsed when 901 seconds have passed. -/
theorem rung_lapsed_iff {now : Timestamp} {event : AuditEvent} :
    rung now (some event) = .lapsed ↔ seconds 901 ≤ now - event.createdAt := by
  have h900 : ageSeconds now event ≤ 900 ↔ now - event.createdAt < seconds 901 :=
    ageSeconds_le_iff (n := 900) (by decide)
  have hlate : seconds 901 ≤ now - event.createdAt ↔ ¬ ageSeconds now event ≤ 900 := by
    rw [h900, not_lt]
  rw [rung, hlate]
  constructor
  · intro h hage
    rw [if_pos hage] at h
    split at h <;> cases h
  · intro hage
    rw [if_neg (fun hfresh => hage (by omega)), if_neg hage]

/-- A node that was silent for more than 900 seconds, outside the 901st. -/
theorem rung_of_silent {s : Store} {nodeId : String} {now : Timestamp}
    (hsecond : ∀ event, s.latestNodeHeartbeatEvent nodeId = some event →
      seconds 900 < now - event.createdAt → seconds 901 ≤ now - event.createdAt)
    (h : Silent s nodeId now) : rung now (s.latestNodeHeartbeatEvent nodeId) = .lapsed := by
  cases hnewest : s.latestNodeHeartbeatEvent nodeId with
  | none => rfl
  | some event => exact rung_lapsed_iff.mpr (hsecond event hnewest (h event hnewest))

/-- The monitor's ladder only goes down. -/
theorem health_mono {t1 t2 : Timestamp} (h : t1 ≤ t2) (s : Store) (nodeId : String) :
    (monitorHealth s nodeId t1).health.rank ≤ (monitorHealth s nodeId t2).health.rank := by
  by_cases hcompatible :
      ∀ event, s.lastHeartbeatEvent nodeId = some event → workerCompatible event = true
  · rw [health_eq t1 hcompatible, health_eq t2 hcompatible, state_eq, state_eq]
    have hmono := cliRung_mono h (s.lastHeartbeatEvent nodeId)
    revert hmono
    cases cliRung t1 (s.lastHeartbeatEvent nodeId) <;>
      cases cliRung t2 (s.lastHeartbeatEvent nodeId) <;> decide
  · push Not at hcompatible
    obtain ⟨event, hlast, hincompatible⟩ := hcompatible
    simp [monitorHealth, hlast, hincompatible]

/-- A node whose worker is not compatible is critical; any other is as the
command line has it. -/
theorem health_of_offline {s : Store} {nodeId : String} {now : Timestamp}
    (h : (nodeLiveness s nodeId now).state = .offline) :
    (monitorHealth s nodeId now).health = .critical := by
  by_cases hcompatible :
      ∀ event, s.lastHeartbeatEvent nodeId = some event → workerCompatible event = true
  · rw [health_eq now hcompatible, h]
    rfl
  · push Not at hcompatible
    obtain ⟨event, hlast, hincompatible⟩ := hcompatible
    simp [monitorHealth, hlast, hincompatible]

/-- **The views of a managed node agree exactly within the limits.** -/
theorem liveness_views_agree_iff {node : Node} (hmanaged : node.status = .managed) (s : Store)
    {t1 t2 : Timestamp} (hle : t1 ≤ t2) :
    LivenessViewsAgree s node t1 t2 ↔ ∀ t ∈ [t1, t2], WithinLimits s node.nodeId t := by
  have hpending : node.status ≠ .pending := by simp [hmanaged]
  constructor
  · intro h t ht
    have hrung := h.console t ht
    rw [consoleLive_eq hpending, state_eq] at hrung
    refine withinLimits_iff.mpr ⟨Rung.live_injective hrung, fun event hnewest hold => ?_⟩
    have hsilent : Silent s node.nodeId t := by
      intro newest hn
      rw [hnewest] at hn
      obtain rfl := Option.some.inj hn
      exact hold
    have hoffline := (h.lapses t ht hsilent).2.1
    rw [consoleLive_eq hpending, hnewest] at hoffline
    exact rung_lapsed_iff.mp (@Rung.live_injective _ .lapsed hoffline)
  · intro h
    have hconsole : ∀ t ∈ [t1, t2],
        consoleLive s node t = (nodeLiveness s node.nodeId t).state := by
      intro t ht
      rw [consoleLive_eq hpending, state_eq, (withinLimits_iff.mp (h t ht)).1]
    refine ⟨hconsole, fun hcompatible t _ => health_eq t hcompatible, ?_, ?_,
      health_mono hle s node.nodeId, fun t ht hsilent => ?_⟩
    · rw [state_eq, state_eq, Rung.rank_live, Rung.rank_live]
      exact cliRung_mono hle _
    · rw [consoleLive_eq hpending, consoleLive_eq hpending, Rung.rank_live, Rung.rank_live]
      exact rung_mono hle _
    · have hlapsed := rung_of_silent (h t ht).wholeSecond hsilent
      have hlive : consoleLive s node t = .offline := by
        rw [consoleLive_eq hpending, hlapsed]
        rfl
      have hstate : (nodeLiveness s node.nodeId t).state = .offline := by
        rw [← hconsole t ht, hlive]
      exact ⟨hstate, hlive, health_of_offline hstate⟩

/-! ## §5. One heartbeat. -/

/-- When the heartbeat stored last is also the newest, the limits are these:
it is not in its 901st second, and without `ok` it is not older. -/
theorem withinLimits_of_same {s : Store} {nodeId : String} {event : AuditEvent} {now : Timestamp}
    (hlast : s.lastHeartbeatEvent nodeId = some event)
    (hnewest : s.latestNodeHeartbeatEvent nodeId = some event) :
    WithinLimits s nodeId now
      ↔ (seconds 900 < now - event.createdAt → seconds 901 ≤ now - event.createdAt)
        ∧ (event.outcome ≠ "ok" → now - event.createdAt < seconds 901) := by
  have hlapsed := @rung_lapsed_iff now event
  rw [withinLimits_iff, hlast, hnewest]
  constructor
  · rintro ⟨hrung, hsecond⟩
    refine ⟨hsecond event rfl, fun hok => ?_⟩
    rw [cliRung, if_pos hok] at hrung
    rw [← not_le, ← hlapsed, hrung]
    decide
  · rintro ⟨hsecond, hwarned⟩
    refine ⟨?_, fun newest hn => ?_⟩
    · by_cases hok : event.outcome = "ok"
      · rw [cliRung, if_neg (not_not.mpr hok)]
      · have haging : rung now (some event) ≠ .lapsed := by
          rw [Ne, hlapsed, not_le]
          exact hwarned hok
        have hfresh : rung now (some event) ≠ .fresh := by
          intro h
          rw [rung, if_neg (fun hf => hok hf.1)] at h
          split at h <;> cases h
        rw [cliRung, if_pos hok]
        cases h : rung now (some event) with
        | fresh => exact absurd h hfresh
        | aging => rfl
        | lapsed => exact absurd h haging
    · obtain rfl := Option.some.inj hn
      exact hsecond

/-- A log whose only event is a heartbeat at the first instant. -/
def oneHeartbeat (outcome : String) : Store :=
  Store.empty.addAudit
    { eventType := "node", subjectType := "node", subjectId := "node_a", action := "heartbeat"
      outcome, details := [("worker_compatible", .bool true)], createdAt := 0 }

/-- A node that only sends heartbeats. -/
def beatingNode : Node where
  nodeId := "node_a"
  fingerprint := "sha256:abc"
  hostname := "a"
  addresses := []
  trustLevel := "B"
  labels := []
  status := .managed

/-- The views of an `ok` heartbeat agree, at once and when it has lapsed. -/
theorem ok_heartbeat_agrees :
    LivenessViewsAgree (oneHeartbeat "ok") beatingNode 0 (seconds 1000) := by
  refine (liveness_views_agree_iff rfl _ (by decide)).mpr fun t ht => ?_
  rw [@withinLimits_of_same (oneHeartbeat "ok") beatingNode.nodeId _ _ rfl rfl]
  rcases List.mem_pair.mp ht with rfl | rfl
  · exact ⟨by decide, by decide⟩
  · exact ⟨by decide, by decide⟩

/-- **A heartbeat with a warning never lapses for the command line**: 1000
seconds later it calls the node stale where the console calls it offline. -/
theorem warned_heartbeat_disagrees :
    ¬ LivenessViewsAgree (oneHeartbeat "warn") beatingNode 0 (seconds 1000) := by
  intro h
  have hsame := h.console (seconds 1000) (by simp)
  have hlapsed : rung (seconds 1000)
      ((oneHeartbeat "warn").latestNodeHeartbeatEvent beatingNode.nodeId) = .lapsed :=
    rung_lapsed_iff.mpr (by decide)
  rw [consoleLive_eq (by decide), hlapsed, state_eq] at hsame
  exact absurd hsame (by decide)

end Hmn
