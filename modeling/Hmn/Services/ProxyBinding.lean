/-
  Hmn.Services.ProxyBinding — what the reverse proxies say about the services
  found, and what of it the records keep.

  A record is written from the index, which is built before the first domain
  is bound: of the domains that lead to one record, the last one stays
  (`applyProxyEnrichment_rows`).

  Main result: `proxied_domains_bound_iff`.
-/
import Hmn.Framework.Matching
import Hmn.Services.Curated
import Hmn.Services.Discovery

namespace Hmn

open Framework Framework.Fallible Framework.Text

/-! ## §1. The domains of a record. -/

/-- A text that starts and ends with a word. -/
theorem stripChars_eq_self {cs : List Char} (hhead : ∀ c ∈ cs.head?, isSpace c = false)
    (hlast : ∀ c ∈ cs.getLast?, isSpace c = false) : stripChars cs = cs := by
  have hkept : ∀ ds : List Char, (∀ c ∈ ds.head?, isSpace c = false) →
      ds.dropWhile isSpace = ds := by
    intro ds hds
    cases ds with
    | nil => rfl
    | cons d ds => exact List.dropWhile_cons_of_neg (by simp [hds d rfl])
  rw [stripChars, hkept cs hhead, hkept, List.reverse_reverse]
  rwa [List.head?_reverse]

theorem strip_of_isWord {s : String} (h : IsWord s.toList) : Text.strip s = s := by
  rw [Text.strip, stripChars_eq_self (fun c hc => h.2 c (List.mem_of_mem_head? hc))
    (fun c hc => h.2 c (List.mem_of_mem_getLast? hc)), String.ofList_toList]

theorem strip_strip (s : String) : Text.strip (Text.strip s) = Text.strip s := by
  have hdrop : ∀ cs : List Char, ∀ c ∈ (cs.dropWhile isSpace).head?, isSpace c = false := by
    intro cs c hc
    have h := List.head?_dropWhile_not isSpace cs
    rw [Option.mem_def.mp hc] at h
    simpa using h
  have hlast : ∀ c ∈ (stripChars s.toList).getLast?, isSpace c = false := by
    rw [stripChars, List.getLast?_reverse]
    exact hdrop _
  have hhead : ∀ c ∈ (stripChars s.toList).head?, isSpace c = false := by
    intro c hc
    obtain ⟨pre, post, heq, hpre, -⟩ := stripChars_eq s.toList
    refine hdrop s.toList c ?_
    have hleads : stripChars s.toList <+: s.toList.dropWhile isSpace := by
      rw [stripChars, ← List.reverse_suffix, List.reverse_reverse]
      exact List.dropWhile_suffix _
    obtain ⟨rest, hrest⟩ := hleads
    rw [← hrest, List.head?_append, Option.mem_def.mp hc]
    rfl
  rw [Text.strip, Text.strip, String.toList_ofList, stripChars_eq_self hhead hlast]

theorem mem_mergeUniqueStrings {left right : List String} {x : String} :
    x ∈ mergeUniqueStrings left right ↔ x ≠ "" ∧ ∃ y ∈ left ++ right, Text.strip y = x := by
  have hfold : ∀ (items merged : List String), x ∈ items.foldl (fun merged item =>
      let normalized := Text.strip item
      if normalized ≠ "" ∧ normalized ∉ merged then merged ++ [normalized] else merged) merged ↔
        x ∈ merged ∨ (x ≠ "" ∧ ∃ y ∈ items, Text.strip y = x) := by
    intro items
    induction items with
    | nil => simp
    | cons item items ih =>
      intro merged
      rw [List.foldl_cons, ih, List.exists_mem_cons_iff]
      dsimp only
      split_ifs with h
      · rw [List.mem_append, List.mem_singleton]
        constructor
        · rintro ((hx | rfl) | ⟨hne, hx⟩)
          · exact Or.inl hx
          · exact Or.inr ⟨h.1, Or.inl rfl⟩
          · exact Or.inr ⟨hne, Or.inr hx⟩
        · rintro (hx | ⟨hne, rfl | hx⟩)
          · exact Or.inl (Or.inl hx)
          · exact Or.inl (Or.inr rfl)
          · exact Or.inr ⟨hne, hx⟩
      · constructor
        · rintro (hx | ⟨hne, hx⟩)
          · exact Or.inl hx
          · exact Or.inr ⟨hne, Or.inr hx⟩
        · rintro (hx | ⟨hne, rfl | hx⟩)
          · exact Or.inl hx
          · exact Or.inl (by_contra fun hnot => h ⟨hne, hnot⟩)
          · exact Or.inr ⟨hne, hx⟩
  rw [mergeUniqueStrings, hfold]
  simp

/-- A domain that a merge keeps as it is. -/
def PlainDomain (domain : String) : Prop := domain ≠ "" ∧ Text.strip domain = domain

theorem subset_mergeUniqueStrings_iff {left right : List String} :
    left ⊆ mergeUniqueStrings left right ↔ ∀ domain ∈ left, PlainDomain domain := by
  constructor
  · intro h domain hdomain
    obtain ⟨hne, y, -, rfl⟩ := mem_mergeUniqueStrings.mp (h hdomain)
    exact ⟨hne, strip_strip y⟩
  · intro h domain hdomain
    obtain ⟨hne, hstrip⟩ := h domain hdomain
    exact mem_mergeUniqueStrings.mpr ⟨hne, domain, List.mem_append_left _ hdomain, hstrip⟩

theorem mem_mergeUniqueStrings_plain {left : List String} {last domain : String}
    (hleft : ∀ d ∈ left, PlainDomain d) (hlast : PlainDomain last) (hdomain : PlainDomain domain) :
    domain ∈ mergeUniqueStrings left [last] ↔ domain ∈ left ∨ last = domain := by
  rw [mem_mergeUniqueStrings]
  constructor
  · rintro ⟨-, y, hy, hstrip⟩
    rcases List.mem_append.mp hy with hy | hy
    · exact Or.inl (hstrip ▸ (hleft y hy).2.symm ▸ hy)
    · obtain rfl := List.mem_singleton.mp hy
      exact Or.inr (hlast.2.symm.trans hstrip)
  · rintro (hmem | rfl)
    · exact ⟨hdomain.1, domain, List.mem_append_left _ hmem, hdomain.2⟩
    · exact ⟨hdomain.1, last, List.mem_append_right _ (List.mem_singleton_self last), hlast.2⟩

/-! ## §2. Binding a domain. -/

/-- `m'` has the keys of `m`. -/
def KeepsKeys (m m' : Dict) : Prop := ∀ key, m.get? key ≠ none → m'.get? key ≠ none

theorem KeepsKeys.trans {m m' m'' : Dict} (h : KeepsKeys m m') (h' : KeepsKeys m' m'') :
    KeepsKeys m m'' := fun key hkey => h' key (h key hkey)

theorem KeepsKeys.set (m : Dict) (key : String) (value : Json) : KeepsKeys m (m.set key value) := by
  intro k hk
  rw [Dict.get?_set]
  split
  · exact nofun
  · exact hk

/-- A member other than `listen_ports` is merged in without an error. -/
theorem mergeKey_total (merged : Dict) {kv : String × Json} (hkey : kv.1 ≠ "listen_ports") :
    ∃ merged', mergeKey merged kv = .ok merged' ∧ KeepsKeys merged merged' := by
  rw [mergeKey, if_neg hkey]
  split
  · exact ⟨_, rfl, KeepsKeys.set merged kv.1 _⟩
  · exact ⟨_, rfl, KeepsKeys.set merged kv.1 _⟩
  · exact ⟨merged, rfl, fun _ h => h⟩

theorem mergeMetadata_total {incoming : Dict} (h : ∀ kv ∈ incoming, kv.1 ≠ "listen_ports")
    (existing : Dict) :
    ∃ merged, mergeMetadata existing incoming = .ok merged ∧ KeepsKeys existing merged := by
  unfold mergeMetadata
  induction incoming generalizing existing with
  | nil => exact ⟨existing, rfl, fun _ h => h⟩
  | cons kv incoming ih =>
    obtain ⟨hkv, hincoming⟩ := List.forall_mem_cons.mp h
    obtain ⟨merged, hok, hkeeps⟩ := mergeKey_total existing hkv
    obtain ⟨merged', hok', hkeeps'⟩ := ih hincoming merged
    refine ⟨merged', ?_, hkeeps.trans hkeeps'⟩
    rw [List.foldlM_cons, hok, bind_ok, hok']

/-- The record `r`, with the domain of `b` and nothing lost but, perhaps, a
domain. -/
structure BoundTo (b : Binding) (r r' : ServiceRecord) : Prop where
  serviceId : r'.serviceId = r.serviceId
  domains : r'.domains = mergeUniqueStrings r.domains [b.domain]
  ports : r'.ports = r.ports
  deployPath : r'.deployPath = r.deployPath
  configPaths : r'.configPaths = r.configPaths
  envPaths : r'.envPaths = r.envPaths
  dataPaths : r'.dataPaths = r.dataPaths
  docsPath : r'.docsPath = r.docsPath
  metadata : KeepsKeys r.metadata r'.metadata

/-- **What `bind` does.** -/
theorem bind_total (records : ServiceTable) (r : ServiceRecord) (b : Binding) :
    ∃ r', BoundTo b r r' ∧ bind_ records r b = .ok (records.upsert r') := by
  obtain ⟨metadata, hok, hkeeps⟩ := @mergeMetadata_total [
    ("reverse_proxy", .obj [("source", .str b.source), ("domain", .str b.domain),
      ("target_port", .int b.targetPort)]),
    ("exposure", .obj [("scope", .str b.scope)])] (by simp) r.metadata
  obtain ⟨metadata', hok', hkeeps'⟩ : ∃ metadata', withHealthCheck metadata b = .ok metadata'
      ∧ KeepsKeys metadata metadata' := by
    unfold withHealthCheck
    split
    · exact mergeMetadata_total (by simp) metadata
    · exact ⟨metadata, rfl, fun _ h => h⟩
  refine ⟨{ r with
    domains := mergeUniqueStrings r.domains [b.domain]
    healthCheckUrl := preferExisting r.healthCheckUrl b.healthCheckUrl
    metadata := metadata' }, ⟨rfl, rfl, rfl, rfl, rfl, rfl, rfl, rfl, hkeeps.trans hkeeps'⟩, ?_⟩
  rw [bind_, hok, bind_ok, hok', bind_ok]
  rfl

/-! ## §3. The loop. -/

/-- The bindings that lead to a record. -/
def bindingsOf (records : ServiceTable) (bindings : List Binding) (r : ServiceRecord) :
    List Binding :=
  bindings.filter (fun b => portIndex records b.targetPort = some r)

/-- The last binding that leads to a record. -/
def lastBinding (records : ServiceTable) (bindings : List Binding) (r : ServiceRecord) :
    Option Binding :=
  (bindingsOf records bindings r).getLast?

/-- What the loop makes of a record: the last binding that leads to it counts. -/
def Enriched (records : ServiceTable) (bindings : List Binding) (r r' : ServiceRecord) : Prop :=
  match lastBinding records bindings r with
  | none => r' = r
  | some b => BoundTo b r r'

variable {records enriched : ServiceTable} {bindings : List Binding} {b : Binding}
  {r r' : ServiceRecord}

theorem Enriched.serviceId (h : Enriched records bindings r r') : r'.serviceId = r.serviceId := by
  unfold Enriched at h
  split at h
  · rw [h]
  · exact h.serviceId

theorem Enriched.ports (h : Enriched records bindings r r') : r'.ports = r.ports := by
  unfold Enriched at h
  split at h
  · rw [h]
  · exact h.ports

theorem lastBinding_append_of_ne (h : portIndex records b.targetPort ≠ some r) :
    lastBinding records (bindings ++ [b]) r = lastBinding records bindings r := by
  rw [lastBinding, bindingsOf, List.filter_append, List.filter_cons_of_neg (by simpa using h),
    List.filter_nil, List.append_nil, lastBinding, bindingsOf]

theorem lastBinding_append_self (h : portIndex records b.targetPort = some r) :
    lastBinding records (bindings ++ [b]) r = some b := by
  rw [lastBinding, bindingsOf, List.filter_append, List.filter_cons_of_pos (by simpa using h),
    List.filter_nil, List.getLast?_append]
  rfl

/-- **The loop**: it does not raise, and it rewrites the records in place. -/
theorem applyProxyEnrichment_rows (records : ServiceTable) (bindings : List Binding) :
    ∃ enriched, applyProxyEnrichment records bindings = .ok enriched
      ∧ List.Forall₂ (Enriched records bindings) records.rows enriched.rows := by
  induction bindings using List.reverseRecOn with
  | nil => exact ⟨records, rfl, List.forall₂_same.mpr fun r _ => rfl⟩
  | append_singleton bindings b ih =>
    obtain ⟨enriched, hok, hrows⟩ := ih
    rw [applyProxyEnrichment] at hok
    cases howner : portIndex records b.targetPort with
    | none =>
      refine ⟨enriched, ?_, hrows.imp fun r r' h => ?_⟩
      · rw [applyProxyEnrichment, List.foldlM_append, hok, bind_ok, List.foldlM_cons, howner]
        rfl
      · rw [Enriched, lastBinding_append_of_ne (by rw [howner]; exact nofun)]
        exact h
    | some target =>
      have hmem : target ∈ records.rows := List.mem_of_find?_eq_some howner
      obtain ⟨target', hbound, hbind⟩ := bind_total enriched target b
      refine ⟨enriched.upsert target', ?_, ?_⟩
      · rw [applyProxyEnrichment, List.foldlM_append, hok, bind_ok, List.foldlM_cons, howner]
        exact congrArg (· >>= _) hbind
      · have hold : enriched.find? target'.serviceId ≠ none := by
          obtain ⟨old, hold, henriched⟩ := exists_right hrows hmem
          rw [hbound.serviceId, ← henriched.serviceId, Table.find?_of_mem hold]
          exact nofun
        have hmembers := List.forall₂_and_left (p := (· ∈ records.rows)) _ _ |>.mpr
          ⟨fun r hr => hr, hrows⟩
        rw [Table.rows_upsert_old hold, List.forall₂_map_right_iff]
        refine hmembers.imp ?_
        rintro r x ⟨hr, hx⟩
        by_cases heq : r = target
        · subst heq
          rw [if_pos (hx.serviceId.trans hbound.serviceId.symm), Enriched,
            lastBinding_append_self howner]
          exact hbound
        · have hkey : x.serviceId ≠ target'.serviceId := by
            rw [hx.serviceId, hbound.serviceId]
            exact fun h => heq (records.eq_of_key_eq hr hmem h)
          rw [if_neg hkey, Enriched, lastBinding_append_of_ne
            (by rw [howner]; exact fun h => heq (Option.some.inj h).symm)]
          exact hx

/-- The record that has a port before has it afterwards. -/
theorem portIndex_enriched {port : Int}
    (hrows : List.Forall₂ (Enriched records bindings) records.rows enriched.rows)
    (h : portIndex records port = some r) :
    ∃ r', portIndex enriched port = some r' ∧ Enriched records bindings r r' :=
  find?_of_forall₂ hrows (fun _ _ hx => by rw [hx.ports]) h

/-! ## §4. The domains that are bound. -/

theorem isSpace_domainChar {c : Char}
    (h : (Regex.isAlnum c || c = '_' || c = '.' || c = '-') = true) : isSpace c = false := by
  simp only [Bool.or_eq_true, decide_eq_true_eq] at h
  rcases h with ((halnum | rfl) | rfl) | rfl
  · simp only [Regex.isAlnum, Bool.or_eq_true, Bool.and_eq_true, decide_eq_true_eq] at halnum
    simp only [isSpace, Bool.or_eq_false_iff, Bool.and_eq_false_iff, decide_eq_false_iff_not,
      beq_eq_false_iff_ne]
    omega
  all_goals decide

theorem IsWord.plainDomain {s : String} (h : IsWord s.toList) : PlainDomain s :=
  ⟨fun hs => h.1 (by rw [hs]; rfl), strip_of_isWord h⟩

theorem caddyBindings_plain {caddyOutput : String}
    (h : caddyBindings caddyOutput = .ok bindings) : ∀ b ∈ bindings, PlainDomain b.domain := by
  intro b hb
  obtain ⟨found, hfound, hok⟩ := exists_left (mapM_eq_ok.mp h) hb
  obtain ⟨port, -, hok⟩ := bind_eq_ok.mp hok
  obtain rfl := pure_eq_ok.mp hok
  obtain ⟨prev, cs, mid, hdomain, hrest⟩ := Regex.mem_findAll hfound
  obtain ⟨w, rest, hne, -, hw, rfl⟩ := Regex.matches_group_plus.mp hdomain
  have hlookup : found.stop.groups.lookup 1 = some w :=
    hrest.lookup_groups (by simp [Regex.all, Regex.groupsIn])
  refine IsWord.plainDomain ?_
  simp only [Regex.Found.group, hlookup, Option.getD_some, String.toList_ofList]
  exact ⟨hne, fun c hc => isSpace_domainChar (hw c hc)⟩

theorem nginxBindings_plain {block : String} (h : nginxBindings block = .ok bindings) :
    ∀ b ∈ bindings, PlainDomain b.domain := by
  have hnone : ∀ {bs : List Binding}, (.ok [] : Except PyError (List Binding)) = .ok bs →
      ∀ b ∈ bs, PlainDomain b.domain := by
    intro bs hbs
    obtain rfl := Except.ok.inj hbs
    exact nofun
  rw [nginxBindings] at h
  split at h
  · exact hnone h
  · exact hnone h
  · split at h
    · exact hnone h
    · obtain ⟨port, -, h⟩ := bind_eq_ok.mp h
      obtain rfl := pure_eq_ok.mp h
      intro b hb
      obtain ⟨domain, hdomain, rfl⟩ := List.mem_map.mp hb
      obtain ⟨names, -, hnames⟩ := List.mem_flatMap.mp hdomain
      obtain ⟨w, hw, rfl⟩ := List.mem_map.mp hnames
      exact IsWord.plainDomain (String.toList_ofList ▸ splitChars_isWord w hw)

theorem proxyBindings_plain {caddyOutput nginxOutput : String}
    (h : proxyBindings caddyOutput nginxOutput = .ok bindings) :
    ∀ b ∈ bindings, PlainDomain b.domain := by
  obtain ⟨caddy, hcaddy, h⟩ := bind_eq_ok.mp h
  obtain ⟨nginx, hnginx, h⟩ := bind_eq_ok.mp h
  obtain rfl := pure_eq_ok.mp h
  intro b hb
  rcases List.mem_append.mp hb with hb | hb
  · exact caddyBindings_plain hcaddy b hb
  · obtain ⟨bs, hbs, hb⟩ := List.mem_flatten.mp hb
    obtain ⟨found, -, hok⟩ := exists_left (mapM_eq_ok.mp hnginx) hbs
    exact nginxBindings_plain hok b hb

/-! ## §5. Nothing is lost. -/

/-- Nothing of the record `r` is lost. -/
structure KeepsRecord (r r' : ServiceRecord) : Prop where
  serviceId : r'.serviceId = r.serviceId
  domains : r.domains ⊆ r'.domains
  ports : r.ports ⊆ r'.ports
  deployPath : r'.deployPath = r.deployPath
  configPaths : r.configPaths ⊆ r'.configPaths
  envPaths : r.envPaths ⊆ r'.envPaths
  dataPaths : r.dataPaths ⊆ r'.dataPaths
  docsPath : r'.docsPath = r.docsPath
  metadata : KeepsKeys r.metadata r'.metadata

/-- The enrichment returns, every domain that the matchers pair with a port of
some record is a domain of the record of that port, and nothing a record had is
lost. -/
def BindsProxiedDomains (records : ServiceTable) (caddyOutput nginxOutput : String) : Prop :=
  ∃ bindings enriched, proxyBindings caddyOutput nginxOutput = .ok bindings
    ∧ applyProxyEnrichment records bindings = .ok enriched
    ∧ (∀ b ∈ bindings, portIndex records b.targetPort ≠ none →
      ∃ r', portIndex enriched b.targetPort = some r' ∧ b.domain ∈ r'.domains)
    ∧ ∀ r ∈ records.rows, ∃ r' ∈ enriched.rows, KeepsRecord r r'

/-- Every port is small enough to be read, a record that is bound has no domain
with blanks around it, and a domain bound to it is one it has or the last one
bound to it. -/
def NoDomainOverwritten (records : ServiceTable) (caddyOutput nginxOutput : String) : Prop :=
  ∃ bindings, proxyBindings caddyOutput nginxOutput = .ok bindings
    ∧ ∀ r ∈ records.rows, ∀ last, lastBinding records bindings r = some last →
      (∀ domain ∈ r.domains, PlainDomain domain)
      ∧ ∀ b ∈ bindingsOf records bindings r, b.domain ∈ r.domains ∨ last.domain = b.domain

theorem BoundTo.keepsRecord_iff (h : BoundTo b r r') :
    KeepsRecord r r' ↔ ∀ domain ∈ r.domains, PlainDomain domain := by
  rw [← @subset_mergeUniqueStrings_iff _ [b.domain], ← h.domains]
  constructor
  · exact KeepsRecord.domains
  · intro hdomains
    exact ⟨h.serviceId, hdomains, h.ports ▸ List.Subset.refl _, h.deployPath,
      h.configPaths ▸ List.Subset.refl _, h.envPaths ▸ List.Subset.refl _,
      h.dataPaths ▸ List.Subset.refl _, h.docsPath, h.metadata⟩

theorem KeepsRecord.refl (r : ServiceRecord) : KeepsRecord r r :=
  ⟨rfl, List.Subset.refl _, List.Subset.refl _, rfl, List.Subset.refl _, List.Subset.refl _,
    List.Subset.refl _, rfl, fun _ h => h⟩

theorem mem_bindingsOf : b ∈ bindingsOf records bindings r
    ↔ b ∈ bindings ∧ portIndex records b.targetPort = some r := by
  rw [bindingsOf, List.mem_filter, decide_eq_true_iff]

theorem lastBinding_mem (h : lastBinding records bindings r = some b) : b ∈ bindings :=
  (mem_bindingsOf.mp (List.mem_of_mem_getLast? h)).1

theorem exists_lastBinding (h : b ∈ bindingsOf records bindings r) :
    ∃ last, lastBinding records bindings r = some last :=
  ⟨_, List.getLast?_eq_some_getLast (List.ne_nil_of_mem h)⟩

/-- **Text discovery binds every proxied domain** exactly when no domain is
overwritten. -/
theorem proxied_domains_bound_iff (records : ServiceTable) (caddyOutput nginxOutput : String) :
    BindsProxiedDomains records caddyOutput nginxOutput
      ↔ NoDomainOverwritten records caddyOutput nginxOutput := by
  constructor
  · rintro ⟨bindings, enriched, hbindings, hok, hbound, hkept⟩
    obtain ⟨enriched', hok', hrows⟩ := applyProxyEnrichment_rows records bindings
    obtain rfl := Except.ok.inj (hok.symm.trans hok')
    have hplain := proxyBindings_plain hbindings
    refine ⟨bindings, hbindings, fun r hr last hlast => ?_⟩
    obtain ⟨r', hr', henriched⟩ := exists_right hrows hr
    have hto : BoundTo last r r' := by
      rw [Enriched, hlast] at henriched
      exact henriched
    obtain ⟨kept, hmem, hkeeps⟩ := hkept r hr
    obtain rfl := enriched.eq_of_key_eq hmem hr' (hkeeps.serviceId.trans hto.serviceId.symm)
    have hdomains := hto.keepsRecord_iff.mp hkeeps
    refine ⟨hdomains, fun b hb => ?_⟩
    obtain ⟨hb, howner⟩ := mem_bindingsOf.mp hb
    obtain ⟨owner, hindex, hmem⟩ := hbound b hb (by rw [howner]; exact nofun)
    obtain ⟨owner', hindex', henriched'⟩ := portIndex_enriched hrows howner
    obtain rfl := Option.some.inj (hindex.symm.trans hindex')
    rw [Enriched, hlast] at henriched'
    rw [henriched'.domains, mem_mergeUniqueStrings_plain hdomains (hplain last
      (lastBinding_mem hlast)) (hplain b hb)] at hmem
    exact hmem
  · rintro ⟨bindings, hbindings, hfree⟩
    obtain ⟨enriched, hok, hrows⟩ := applyProxyEnrichment_rows records bindings
    have hplain := proxyBindings_plain hbindings
    refine ⟨bindings, enriched, hbindings, hok, fun b hb howned => ?_, fun r hr => ?_⟩
    · obtain ⟨r, howner⟩ := Option.ne_none_iff_exists'.mp howned
      have hmem := mem_bindingsOf.mpr ⟨hb, howner⟩
      obtain ⟨last, hlast⟩ := exists_lastBinding hmem
      obtain ⟨hdomains, hcovered⟩ := hfree r (List.mem_of_find?_eq_some howner) last hlast
      obtain ⟨r', hindex, henriched⟩ := portIndex_enriched hrows howner
      rw [Enriched, hlast] at henriched
      refine ⟨r', hindex, ?_⟩
      rw [henriched.domains]
      exact (mem_mergeUniqueStrings_plain hdomains (hplain last (lastBinding_mem hlast))
        (hplain b hb)).mpr (hcovered b hmem)
    · obtain ⟨r', hr', henriched⟩ := exists_right hrows hr
      refine ⟨r', hr', ?_⟩
      unfold Enriched at henriched
      split at henriched
      · rw [henriched]
        exact KeepsRecord.refl r
      · rename_i last hlast
        exact henriched.keepsRecord_iff.mpr (hfree r hr last hlast).1

/-- A service behind one port. -/
def proxiedService : ServiceRecord where
  serviceId := "svc_node-a_web"
  name := "web"
  ports := [8080]

/-- A Caddyfile with two sites on one port. -/
def twoSites : String :=
  "a.example.com \x7b\n reverse_proxy 127.0.0.1:8080\n\x7d\n"
    ++ "b.example.com \x7b\n reverse_proxy 127.0.0.1:8080\n\x7d\n"

theorem first_site_lost : ¬ BindsProxiedDomains (.single proxiedService) twoSites "" := by
  rintro ⟨bindings, enriched, hbindings, hok, hbound, -⟩
  have hpairs : (proxyBindings twoSites "").toOption.map
      (List.map fun b => (b.domain, b.targetPort))
        = some [("a.example.com", 8080), ("b.example.com", 8080)] := by
    decide +kernel
  have hafter : ((proxyBindings twoSites "" >>=
      applyProxyEnrichment (.single proxiedService)).toOption.bind (portIndex · 8080)).map
        ServiceRecord.domains = some ["b.example.com"] := by
    decide +kernel
  rw [hbindings] at hpairs
  obtain ⟨b, hb, hfirst⟩ : ∃ b ∈ bindings, (b.domain, b.targetPort) = ("a.example.com", 8080) := by
    rw [← List.mem_map, Option.some.inj hpairs]
    exact List.mem_cons_self
  obtain ⟨hdomain, hport⟩ := Prod.mk.inj hfirst
  obtain ⟨r', hindex, hmem⟩ := hbound b hb (by rw [hport]; decide)
  rw [hbindings, bind_ok, hok] at hafter
  rw [hport] at hindex
  rw [Except.toOption, Option.bind_some, hindex] at hafter
  rw [hdomain, Option.some.inj hafter] at hmem
  revert hmem
  decide

end Hmn
