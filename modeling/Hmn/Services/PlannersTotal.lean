/-
  Hmn.Services.PlannersTotal — which registries can be planned for?

  A list of texts is read from a value that may be anything; a value that is
  no list is looked up in a set first, and a dictionary has no hash.

  Main results: `plan_builders_iff` — no plan raises exactly when none of the
  four values read as lists is a dictionary, in any service;
  `smoke_dictionary_raises` — a registry without a plan.
-/
import Hmn.Framework.Fallible
import Hmn.Services.Planners

namespace Hmn

open Framework

/-! ## §1. Plans that are built. -/

/-- The plans are built, whatever is asked for. -/
def PlansBuilt (alnum : Char → Bool) (registry : ServiceRegistry) : Prop :=
  (∀ args, ∃ plan, Restore.buildRestorePlan alnum registry args = .ok plan)
  ∧ (∀ args, ∃ plan, Migration.buildMigrationPlan alnum registry args = .ok plan)
  ∧ ∀ args, ∃ plan, BackupProvider.buildBackupPlan alnum registry args = .ok plan

def IsDict : Json → Prop
  | .obj _ => True
  | _ => False

/-- No value of the monitor that is read as a list of texts is a dictionary. -/
structure Plannable (service : RegistryService) : Prop where
  smoke : ¬ IsDict (getOrNone (restoreMetadata service) "smoke")
  includePaths : ¬ IsDict (getAny (backupMetadata service) Migration.includeKeys)
  configPaths : ¬ IsDict (getAny (restoreMetadata service) Migration.configKeys)
  excludePatterns : ¬ IsDict (getAny (backupMetadata service) BackupProvider.excludeKeys)

/-! ## §2. One service. -/

theorem stringList_ok_iff {value : Json} : (∃ texts, stringList value = .ok texts) ↔ ¬ IsDict value := by
  have hscalar : ∀ {key : Json}, hashKey value = .ok key → (∀ xs, value ≠ .arr xs) →
      ∃ texts, stringList value = .ok texts := by
    intro key hkey harr
    unfold stringList
    split
    · exact absurd rfl (harr _)
    · rw [hkey, Fallible.bind_ok]
      split
      · exact ⟨_, rfl⟩
      · exact ⟨_, rfl⟩
  cases value with
  | obj kvs => exact iff_of_false (fun ⟨_, h⟩ => by cases h) (not_not_intro trivial)
  | arr xs => exact iff_of_true ⟨_, rfl⟩ id
  | null | bool | int | float | str => exact iff_of_true (hscalar rfl nofun) id

/-- A list is mapped exactly when each of its elements is. -/
theorem mapM_ok_iff {α β : Type} {f : α → Except PyError β} {xs : List α} :
    (∃ ys, xs.mapM f = .ok ys) ↔ ∀ x ∈ xs, ∃ y, f x = .ok y := by
  refine ⟨?_, Fallible.mapM_total⟩
  rintro ⟨ys, h⟩ x hx
  obtain ⟨y, -, hy⟩ := Fallible.exists_right (Fallible.mapM_eq_ok.mp h) hx
  exact ⟨y, hy⟩

section

variable {alnum : Char → Bool} {service : RegistryService}

theorem exists_ok {α : Type} (a : α) : ∃ b, (Except.ok a : Except PyError α) = .ok b := ⟨a, rfl⟩

theorem verificationSteps_ok_iff {backup restore : Dict} :
    (∃ steps, Restore.verificationSteps alnum service backup restore = .ok steps)
      ↔ ¬ IsDict (getOrNone restore "smoke") := by
  unfold Restore.verificationSteps
  dsimp only
  rw [Fallible.exists_bind_eq_ok]
  simp only [exists_ok, and_true, stringList_ok_iff]

theorem restorePayload_ok_iff {args : Restore.Args} :
    (∃ payload, Restore.serviceRestorePayload alnum args service = .ok payload)
      ↔ ¬ IsDict (getOrNone (restoreMetadata service) "smoke") := by
  unfold Restore.serviceRestorePayload
  dsimp only
  rw [Fallible.exists_bind_eq_ok]
  simp only [exists_ok, and_true, verificationSteps_ok_iff]

theorem dataPaths_ok_iff {backup restore : Dict} :
    (∃ paths, Migration.dataPaths alnum backup restore = .ok paths)
      ↔ ¬ IsDict (getAny backup Migration.includeKeys) := by
  unfold Migration.dataPaths
  dsimp only
  rw [Fallible.exists_bind_eq_ok]
  simp only [exists_ok, and_true, stringList_ok_iff]

theorem migrationPayload_ok_iff {args : Migration.Args} :
    (∃ payload, Migration.serviceMigrationPayload alnum args service = .ok payload)
      ↔ ¬ IsDict (getAny (backupMetadata service) Migration.includeKeys)
        ∧ ¬ IsDict (getAny (restoreMetadata service) Migration.configKeys) := by
  unfold Migration.serviceMigrationPayload
  dsimp only
  rw [Fallible.exists_bind_eq_ok]
  simp only [Fallible.exists_bind_eq_ok, exists_ok, and_true, exists_and_right, dataPaths_ok_iff,
    Migration.configPaths, stringList_ok_iff]

theorem backupPayload_ok_iff :
    (∃ payload, BackupProvider.serviceBackupPayload service = .ok payload)
      ↔ ¬ IsDict (getAny (backupMetadata service) Migration.includeKeys)
        ∧ ¬ IsDict (getAny (backupMetadata service) BackupProvider.excludeKeys) := by
  unfold BackupProvider.serviceBackupPayload
  dsimp only
  split
  · -- nothing is read of an empty dictionary
    rename_i hempty
    rw [hempty]
    exact iff_of_true (exists_ok _) ⟨id, id⟩
  · rw [Fallible.exists_bind_eq_ok]
    simp only [Fallible.exists_bind_eq_ok, exists_ok, and_true, exists_and_right,
      stringList_ok_iff]

end

/-! ## §3. A registry. -/

section

variable {alnum : Char → Bool} {registry : ServiceRegistry}

theorem buildRestorePlan_ok_iff {args : Restore.Args} :
    (∃ plan, Restore.buildRestorePlan alnum registry args = .ok plan)
      ↔ ∀ service ∈ Restore.selectServices registry args.serviceId,
        ¬ IsDict (getOrNone (restoreMetadata service) "smoke") := by
  unfold Restore.buildRestorePlan
  rw [Fallible.exists_bind_eq_ok]
  simp only [exists_ok, and_true, mapM_ok_iff, restorePayload_ok_iff]

theorem buildMigrationPlan_ok_iff {args : Migration.Args} :
    (∃ plan, Migration.buildMigrationPlan alnum registry args = .ok plan)
      ↔ ∀ service ∈ Migration.selectServices registry args.serviceId args.sourceNode,
        ¬ IsDict (getAny (backupMetadata service) Migration.includeKeys)
          ∧ ¬ IsDict (getAny (restoreMetadata service) Migration.configKeys) := by
  unfold Migration.buildMigrationPlan
  rw [Fallible.exists_bind_eq_ok]
  simp only [exists_ok, and_true, mapM_ok_iff, migrationPayload_ok_iff]

theorem buildBackupPlan_ok_iff {args : BackupProvider.Args} :
    (∃ plan, BackupProvider.buildBackupPlan alnum registry args = .ok plan)
      ↔ ∀ service ∈ BackupProvider.selectServices registry args.serviceId
          (normalizeAdapter (orNone args.adapter)),
        ¬ IsDict (getAny (backupMetadata service) Migration.includeKeys)
          ∧ ¬ IsDict (getAny (backupMetadata service) BackupProvider.excludeKeys) := by
  unfold BackupProvider.buildBackupPlan
  dsimp only
  rw [Fallible.exists_bind_eq_ok]
  simp only [exists_ok, and_true, mapM_ok_iff, backupPayload_ok_iff]

theorem selectServices_subset {serviceId : Option String} {service : RegistryService}
    (h : service ∈ Restore.selectServices registry serviceId) : service ∈ registry.listServices := by
  unfold Restore.selectServices at h
  split at h
  · exact h
  · exact (List.mem_filter.mp h).1

/-- **Plans are built for a registry** exactly when all its services can be
planned for. -/
theorem plan_builders_iff (alnum : Char → Bool) (registry : ServiceRegistry) :
    PlansBuilt alnum registry ↔ ∀ service ∈ registry.listServices, Plannable service := by
  simp only [PlansBuilt, buildRestorePlan_ok_iff, buildMigrationPlan_ok_iff,
    buildBackupPlan_ok_iff]
  constructor
  · rintro ⟨hrestore, hmigration, hbackup⟩ service hservice
    have hrestore := hrestore {} service hservice
    have hmigration := hmigration {} service hservice
    have hbackup := hbackup {} service hservice
    exact ⟨hrestore, hmigration.1, hmigration.2, hbackup.2⟩
  · intro h
    refine ⟨fun args service hservice => (h service (selectServices_subset hservice)).smoke,
      fun args service hservice => ?_, fun args service hservice => ?_⟩
    · have hselected : service ∈ Restore.selectServices registry args.serviceId := by
        unfold Migration.selectServices at hservice
        split at hservice
        · exact hservice
        · exact (List.mem_filter.mp hservice).1
      have hplannable := h service (selectServices_subset hselected)
      exact ⟨hplannable.includePaths, hplannable.configPaths⟩
    · have hselected : service ∈ Restore.selectServices registry args.serviceId := by
        unfold BackupProvider.selectServices at hservice
        split at hservice
        · exact hservice
        · exact (List.mem_filter.mp hservice).1
      have hplannable := h service (selectServices_subset hselected)
      exact ⟨hplannable.includePaths, hplannable.excludePatterns⟩

end

/-- A service whose smoke test is a dictionary. -/
def smokeService : RegistryService where
  serviceId := "web"
  name := "web"
  node := "node1"
  kind := "docker"
  monitor := [("restore", .obj [("smoke", .obj [("cmd", .str "curl -fsS https://example.com/")])])]

/-- There is no restore plan for it. -/
theorem smoke_dictionary_raises :
    Restore.buildRestorePlan Regex.isAlnum (ServiceRegistry.ofList [smokeService]) {}
      = .error (.type "unhashable type: 'dict'")
    ∧ ¬ PlansBuilt Regex.isAlnum (ServiceRegistry.ofList [smokeService]) := by
  have hraises : Restore.buildRestorePlan Regex.isAlnum (ServiceRegistry.ofList [smokeService]) {}
      = .error (.type "unhashable type: 'dict'") := by decide +kernel
  refine ⟨hraises, fun h => ?_⟩
  obtain ⟨plan, hplan⟩ := h.1 {}
  cases hraises.symm.trans hplan

end Hmn
