/-
  Hmn.Services.ProxyOwners — which domain the parser of a reverse-proxy
  configuration gives a port to.

  The header of a Caddy site takes up the name of the site, and a `server_name`
  the dotted names that nothing before it has taken up.  A port goes to the
  name that was taken up last before it, in whichever block that was
  (`parseReverseProxyConfig_spells`).

  Main result: `domains_mapped_iff`.
-/
import Hmn.Services.ProxyConfig
import Mathlib.Data.List.ReduceOption

namespace Hmn

open Framework Framework.Fallible Framework.Text

/-! ## §1. Blocks. -/

/-- A block of a configuration.  Lines that neither name nor proxy to this
machine are `none`; in a server block the names come first. -/
inductive ProxyBlock where
  | nginx (naming : List (Option (List String))) (proxying : List (Option Nat))
  | caddy (names : List String) (proxying : List (Option Nat))

namespace ProxyBlock

def namingLine : Option (List String) → ProxyLine
  | some names => .serverName names
  | none => .other

def proxyingLine : Option Nat → ProxyLine
  | some port => .upstream port
  | none => .other

/-- The lines of a block. -/
def lines : ProxyBlock → List ProxyLine
  | nginx naming proxying => naming.map namingLine ++ proxying.map proxyingLine
  | caddy names proxying => .site names :: proxying.map proxyingLine

/-- The domains a block names. -/
def domains : ProxyBlock → List String
  | nginx naming _ => naming.reduceOption.flatten.filter dotted
  | caddy names _ => names

/-- The ports of this machine a block proxies to. -/
def ports : ProxyBlock → List Nat
  | nginx _ proxying | caddy _ proxying => proxying.reduceOption

end ProxyBlock

/-- `text` is a configuration of these blocks. -/
def Spells (blocks : List ProxyBlock) (text : String) : Prop :=
  List.Forall₂ (fun line raw => line.Spelled (stripChars raw.toList))
    (blocks.flatMap ProxyBlock.lines) (Text.splitLines text)

/-! ## §2. Owners. -/

/-- The names that are not in `seen` and not named before in the list. -/
def firstMentions : List String → List String → List String
  | _, [] => []
  | seen, name :: names =>
    if name ∈ seen then firstMentions seen names
    else name :: firstMentions (seen ++ [name]) names

/-- The names a block takes up, where those in `seen` were before it. -/
def ProxyBlock.takesUp (seen : List String) : ProxyBlock → List String
  | block@(nginx _ _) => firstMentions seen block.domains
  | caddy [name] _ => [name]
  | caddy _ _ => []

/-- Every port with its owner, the name that was taken up last before it. -/
def ownedPorts (seen : List String) : List ProxyBlock → List (String × Nat)
  | [] => []
  | block :: blocks =>
    let seen := seen ++ block.takesUp seen
    seen.getLast?.toList.flatMap (fun owner => block.ports.map (owner, ·))
      ++ ownedPorts seen blocks

/-- Every name that is taken up. -/
def takenUp (seen : List String) : List ProxyBlock → List String
  | [] => seen
  | block :: blocks => takenUp (seen ++ block.takesUp seen) blocks

/-- A port is given to its owner. -/
def bindPort (mappings : ProxyMappings) (owned : String × Nat) : Except PyError ProxyMappings := do
  let port ← intOfDigits (portChars owned.2)
  pure (mappings.upsert (owned.1, port))

/-! ## §3. The parser, block by block. -/

/-- The state of the parser: the domain that is current is the last that was
taken up. -/
def ProxyScan.after (seen : List String) (mappings : ProxyMappings) : ProxyScan :=
  ⟨seen, mappings, seen.getLast?⟩

theorem foldl_addServerName (seen : List String) (mappings : ProxyMappings) (names : List String) :
    names.foldl addServerName (.after seen mappings)
      = .after (seen ++ firstMentions seen (names.filter dotted)) mappings := by
  induction names generalizing seen with
  | nil => simp [firstMentions]
  | cons name names ih =>
    rw [List.foldl_cons]
    by_cases htaken : dotted name = true ∧ name ∉ seen
    · have hadd : addServerName (.after seen mappings) name = .after (seen ++ [name]) mappings := by
        refine (if_pos htaken).trans ?_
        simp [ProxyScan.after]
      rw [hadd, ih, List.filter_cons_of_pos htaken.1, firstMentions, if_neg htaken.2,
        List.append_assoc, List.singleton_append]
    · have hskip : addServerName (.after seen mappings) name = .after seen mappings :=
        if_neg htaken
      rw [hskip, ih]
      by_cases hdotted : dotted name = true
      · have hseen : name ∈ seen := by_contra fun hnot => htaken ⟨hdotted, hnot⟩
        rw [List.filter_cons_of_pos hdotted, firstMentions, if_pos hseen]
      · rw [List.filter_cons_of_neg hdotted]

theorem read_naming (seen : List String) (mappings : ProxyMappings)
    (naming : List (Option (List String))) :
    (naming.map ProxyBlock.namingLine).foldlM ProxyScan.read (.after seen mappings)
      = .ok (.after (seen ++ firstMentions seen (naming.reduceOption.flatten.filter dotted))
          mappings) := by
  have hfold : ∀ scan, (naming.map ProxyBlock.namingLine).foldlM ProxyScan.read scan
      = .ok (naming.reduceOption.flatten.foldl addServerName scan) := by
    induction naming with
    | nil => exact fun scan => rfl
    | cons names naming ih =>
      intro scan
      rw [List.map_cons, List.foldlM_cons]
      cases names with
      | none => exact ih scan
      | some names =>
        rw [List.reduceOption_cons_of_some, List.flatten_cons, List.foldl_append]
        exact ih _
  rw [hfold, foldl_addServerName]

/-- The ports behind the names of a block go to the domain that is current. -/
theorem read_proxying (seen : List String) (mappings : ProxyMappings)
    (proxying : List (Option Nat)) :
    (proxying.map ProxyBlock.proxyingLine).foldlM ProxyScan.read (.after seen mappings)
      = (seen.getLast?.toList.flatMap fun owner => proxying.reduceOption.map (owner, ·)).foldlM
          bindPort mappings >>= fun mappings => pure (.after seen mappings) := by
  -- Before the first name there is no current domain, and the port is dropped.
  cases hlast : seen.getLast? with
  | none =>
    induction proxying with
    | nil => rfl
    | cons port proxying ih =>
      rw [List.map_cons, List.foldlM_cons]
      have hskip : ProxyScan.read (.after seen mappings) (ProxyBlock.proxyingLine port)
          = .ok (.after seen mappings) := by
        cases port with
        | none => rfl
        | some port => rw [ProxyBlock.proxyingLine, ProxyScan.read, ProxyScan.after, hlast]
      rw [hskip]
      exact ih
  | some owner =>
    rw [Option.toList_some, List.flatMap_singleton]
    induction proxying generalizing mappings with
    | nil => rfl
    | cons port proxying ih =>
      rw [List.map_cons, List.foldlM_cons]
      cases port with
      | none => exact ih mappings
      | some port =>
        have hread : ProxyScan.read (.after seen mappings) (ProxyBlock.proxyingLine (some port))
            = bindPort mappings (owner, port) >>= fun mappings => pure (.after seen mappings) := by
          rw [ProxyBlock.proxyingLine, ProxyScan.read, bindPort, bind_assoc]
          simp only [ProxyScan.after, hlast, pure_bind]
        rw [hread, List.reduceOption_cons_of_some, List.map_cons, List.foldlM_cons, bind_assoc,
          bind_assoc]
        simp only [pure_bind, ih]

theorem read_block (seen : List String) (mappings : ProxyMappings) (block : ProxyBlock) :
    let seen' := seen ++ block.takesUp seen
    block.lines.foldlM ProxyScan.read (.after seen mappings)
      = (seen'.getLast?.toList.flatMap fun owner => block.ports.map (owner, ·)).foldlM
          bindPort mappings >>= fun mappings => pure (.after seen' mappings) := by
  cases block with
  | nginx naming proxying =>
    rw [ProxyBlock.lines, List.foldlM_append, read_naming]
    exact read_proxying _ mappings proxying
  | caddy names proxying =>
    rw [ProxyBlock.lines, List.foldlM_cons]
    have hsite : ProxyScan.read (.after seen mappings) (.site names)
        = .ok (.after (seen ++ (ProxyBlock.caddy names proxying).takesUp seen) mappings) := by
      match names with
      | [] | _ :: _ :: _ => simp [ProxyScan.read, ProxyBlock.takesUp]
      | [name] => simp [ProxyScan.read, ProxyBlock.takesUp, ProxyScan.after]
    rw [hsite]
    exact read_proxying _ mappings proxying

/-- **What the parser finds are the names taken up, and every port under its
owner.** -/
theorem read_blocks (seen : List String) (mappings : ProxyMappings) (blocks : List ProxyBlock) :
    (blocks.flatMap ProxyBlock.lines).foldlM ProxyScan.read (.after seen mappings)
      = (ownedPorts seen blocks).foldlM bindPort mappings >>= fun mappings =>
          pure (.after (takenUp seen blocks) mappings) := by
  induction blocks generalizing seen mappings with
  | nil => rfl
  | cons block blocks ih =>
    rw [List.flatMap_cons, List.foldlM_append, read_block, ownedPorts, List.foldlM_append,
      bind_assoc, bind_assoc, takenUp]
    simp only [pure_bind, ih]

theorem parseReverseProxyConfig_spells {blocks : List ProxyBlock} {text : String}
    (h : Spells blocks text) :
    parseReverseProxyConfig text = (ownedPorts [] blocks).foldlM bindPort .empty >>= fun mappings =>
      pure (sortedSet (takenUp [] blocks), mappings) := by
  have hlines : ∀ {lines : List ProxyLine} {raws : List String}, List.Forall₂ (fun line raw =>
      ProxyLine.Spelled (stripChars raw.toList) line) lines raws → ∀ scan,
      raws.foldlM readProxyLine scan = lines.foldlM ProxyScan.read scan := by
    intro lines raws hspelled
    induction hspelled with
    | nil => exact fun _ => rfl
    | cons hline _ ih =>
      intro scan
      rw [List.foldlM_cons, List.foldlM_cons, readProxyLine_spelled scan hline]
      exact congrArg _ (funext ih)
  rw [parseReverseProxyConfig, hlines h, show ProxyScan.start = .after [] .empty from rfl,
    read_blocks, bind_assoc]
  rfl

/-! ## §4. Which domains are mapped. -/

theorem foldlM_bindPort {owned : List (String × Nat)} {mappings mappings' : ProxyMappings} :
    owned.foldlM bindPort mappings = .ok mappings' ↔
      (∀ o ∈ owned, (portChars o.2).length ≤ Text.maxDigits)
        ∧ mappings' = (owned.map fun o => (o.1, (o.2 : Int))).foldl Table.upsert mappings := by
  induction owned generalizing mappings with
  | nil => exact ⟨fun h => ⟨nofun, (Except.ok.inj h).symm⟩, fun h => congrArg Except.ok h.2.symm⟩
  | cons o owned ih =>
    rw [List.foldlM_cons, bindPort, List.forall_mem_cons, List.map_cons, List.foldl_cons]
    constructor
    · intro h
      obtain ⟨mappings₁, hbind, h⟩ := bind_eq_ok.mp h
      obtain ⟨port, hport, hmappings⟩ := bind_eq_ok.mp hbind
      obtain rfl := pure_eq_ok.mp hmappings
      obtain ⟨rfl, hlen⟩ := intOfDigits_portChars.mp hport
      obtain ⟨hall, heq⟩ := ih.mp h
      exact ⟨⟨hlen, hall⟩, heq⟩
    · rintro ⟨⟨hlen, hall⟩, heq⟩
      rw [intOfDigits_portChars.mpr ⟨rfl, hlen⟩]
      exact ih.mpr ⟨hall, heq⟩

/-- The last port of a domain, of all ports with their owners. -/
def LastPort (owned : List (String × Nat)) (domain : String) (port : Nat) : Prop :=
  ∃ before after, owned = before ++ (domain, port) :: after ∧ ∀ o ∈ after, o.1 ≠ domain

theorem find?_mappings {owned : List (String × Nat)} {domain : String} {port : Int} :
    ((owned.map fun o => (o.1, (o.2 : Int))).foldl Table.upsert
        (.empty : ProxyMappings)).find? domain = some (domain, port) ↔
      ∃ n : Nat, LastPort owned domain n ∧ port = n := by
  rw [Table.find?_foldl_upsert, or_iff_left fun h => by cases h.2]
  constructor
  · rintro ⟨before, after, heq, -, hafter⟩
    obtain ⟨before', rest, rfl, rfl, hrest⟩ := List.map_eq_append_iff.mp heq
    obtain ⟨o, after', rfl, ho, rfl⟩ := List.map_eq_cons_iff.mp hrest
    obtain ⟨rfl, rfl⟩ := Prod.mk.inj ho
    exact ⟨o.2, ⟨before', after', rfl, fun x hx => hafter _ (List.mem_map_of_mem hx)⟩, rfl⟩
  · rintro ⟨n, ⟨before, after, rfl, hafter⟩, rfl⟩
    refine ⟨before.map _, after.map _, by rw [List.map_append, List.map_cons], rfl, fun x hx => ?_⟩
    obtain ⟨o, ho, rfl⟩ := List.mem_map.mp hx
    exact hafter o ho

/-- A domain with a port has a last one. -/
theorem exists_lastPort {owned : List (String × Nat)} {domain : String} {port : Nat}
    (h : (domain, port) ∈ owned) : ∃ n, LastPort owned domain n := by
  obtain ⟨x, hx⟩ := @Table.exists_find?_foldl_upsert _ _ _ _ (.empty : ProxyMappings)
    (owned.map fun o => (o.1, (o.2 : Int))) domain
    (Or.inr ⟨_, List.mem_map_of_mem h, rfl⟩)
  obtain rfl : x.1 = domain := Table.key_of_find? hx
  obtain ⟨n, hn, -⟩ := find?_mappings.mp hx
  exact ⟨n, hn⟩

theorem LastPort.mem {owned : List (String × Nat)} {domain : String} {port : Nat}
    (h : LastPort owned domain port) : (domain, port) ∈ owned := by
  obtain ⟨before, after, rfl, -⟩ := h
  simp

/-- Some block names the domain and proxies to the port. -/
def ProxiedTo (blocks : List ProxyBlock) (domain : String) (port : Int) : Prop :=
  ∃ block ∈ blocks, domain ∈ block.domains ∧ ∃ n ∈ block.ports, port = (n : Int)

/-- A domain is mapped to the port of a block that names it, and every domain of
a block that proxies to this machine is mapped. -/
def MapsDomains (blocks : List ProxyBlock) (mappings : ProxyMappings) : Prop :=
  (∀ domain port, mappings.find? domain = some (domain, port) → ProxiedTo blocks domain port)
  ∧ ∀ block ∈ blocks, block.ports ≠ [] → ∀ domain ∈ block.domains,
      ∃ port, mappings.find? domain = some (domain, port) ∧ ProxiedTo blocks domain port

/-- Every domain of a block that proxies to this machine owns a port, and the
last port a name owns is one of a block that names it. -/
structure OwnersRight (blocks : List ProxyBlock) : Prop where
  readable : ∀ o ∈ ownedPorts [] blocks, (portChars o.2).length ≤ Text.maxDigits
  owns : ∀ block ∈ blocks, block.ports ≠ [] → ∀ domain ∈ block.domains,
    ∃ port, (domain, port) ∈ ownedPorts [] blocks
  last : ∀ domain port, LastPort (ownedPorts [] blocks) domain port →
    ∃ block ∈ blocks, domain ∈ block.domains ∧ port ∈ block.ports

/-- A line with no underscore that does not start with a dotted word. -/
theorem spelled_other {cs : List Char} (hword : '.' ∉ cs.takeWhile isHostChar) (h : '_' ∉ cs) :
    ProxyLine.other.Spelled cs := by
  refine Or.inr (Or.inr ⟨fun name hheader => hheader.eq_takeWhile ▸ hword, ?_⟩)
  exact not_directive_of_no_underscore fun c hc heq => h (heq ▸ hc)

theorem spaces_single : Spaces [' '] := List.forall_mem_singleton.mpr rfl

/-- A line without a `y` proxies to nothing. -/
theorem not_upstreamIn {cs : List Char} (h : 'y' ∉ cs) : ¬ UpstreamIn cs := by
  rintro ⟨pre, suffix, digits, rest, rfl, directive, hdirective, _, -, -, _, -, _, -, rfl, -, -⟩
  refine h (List.mem_append_right _ (List.mem_append_left _ ?_))
  simp only [proxyDirectives, List.mem_cons, List.not_mem_nil, or_false] at hdirective
  rcases hdirective with rfl | rfl <;> decide

/-- A line without an `n` names no server. -/
theorem not_serverNameIn {cs : List Char} (h : 'n' ∉ cs) : ¬ ServerNameIn cs := by
  rintro ⟨pre, c, post, rfl, -⟩
  exact h (by simp)

theorem spelled_serverOpen : ProxyLine.other.Spelled (stripChars "server \x7b".toList) :=
  spelled_other (by decide +kernel) (by decide +kernel)

theorem spelled_close : ProxyLine.other.Spelled (stripChars "\x7d".toList) :=
  spelled_other (by decide +kernel) (by decide +kernel)

theorem spelled_proxyPass :
    (ProxyLine.upstream 3000).Spelled (stripChars "  proxy_pass http://127.0.0.1:3000;".toList) := by
  have hupstream : stripChars "  proxy_pass http://127.0.0.1:3000;".toList
      = "proxy_pass".toList ++ ([' '] ++ ("http://".toList ++ ("127.0.0.1".toList
        ++ (':' :: portChars 3000 ++ [';'])))) := by decide +kernel
  refine ⟨⟨[';'], ?_⟩, not_serverNameIn (by decide +kernel)⟩
  exact ⟨"proxy_pass", by decide, [' '], by decide, spaces_single, "http://", by decide, "127.0.0.1",
    by decide, hupstream, digits_portChars 3000, by decide⟩

def serverAndSite : List ProxyBlock :=
  [.nginx [none, some ["a.example.com"]] [some 3000, none],
    .caddy ["example.com"] [some 8080, none]]

def serverAndSiteText : String :=
  "server \x7b\n  server_name a.example.com;\n  proxy_pass http://127.0.0.1:3000;\n\x7d\n"
    ++ "example.com \x7b\n  reverse_proxy localhost:8080\n\x7d\n"

theorem serverAndSite_spelled : Spells serverAndSite serverAndSiteText := by
  have hlines : Text.splitLines serverAndSiteText
      = ["server \x7b", "  server_name a.example.com;", "  proxy_pass http://127.0.0.1:3000;",
        "\x7d", "example.com \x7b", "  reverse_proxy localhost:8080", "\x7d"] := by decide +kernel
  have hname : stripChars "  server_name a.example.com;".toList
      = "server_name".toList ++ ([' '] ++ "a.example.com".toList ++ ';' :: []) := by decide +kernel
  have hsite : stripChars "example.com \x7b".toList = "example.com".toList ++ [' '] ++ ['\x7b'] := by
    decide +kernel
  have hupstream : stripChars "  reverse_proxy localhost:8080".toList
      = "reverse_proxy".toList ++ ([' '] ++ ("".toList ++ ("localhost".toList
        ++ (':' :: portChars 8080 ++ [])))) := by decide +kernel
  rw [Spells, hlines]
  refine .cons spelled_serverOpen (.cons ⟨by decide, ⟨_, _, _, hname, by decide, spaces_single,
    by decide +kernel, by decide +kernel⟩, ?_⟩ (.cons spelled_proxyPass (.cons spelled_close ?_)))
  · exact not_upstreamIn (by decide +kernel)
  refine .cons ⟨?_, _, _, hsite, .single _, spaces_single⟩
    (.cons ⟨⟨[], ?_⟩, ?_⟩ (.cons spelled_close .nil))
  · exact List.forall_mem_singleton.mpr ⟨by decide +kernel, by decide +kernel⟩
  · exact ⟨"reverse_proxy", by decide, [' '], by decide, spaces_single, "", by decide, "localhost",
      by decide, hupstream, digits_portChars 8080, nofun⟩
  · exact not_serverNameIn (by decide +kernel)

def twoNames : List ProxyBlock :=
  [.nginx [none, some ["a.example.com", "b.example.com"]] [some 3000, none]]

def twoNamesText : String :=
  "server \x7b\n  server_name a.example.com b.example.com;\n  proxy_pass http://127.0.0.1:3000;\n\x7d\n"

theorem twoNames_spelled : Spells twoNames twoNamesText := by
  have hlines : Text.splitLines twoNamesText
      = ["server \x7b", "  server_name a.example.com b.example.com;",
        "  proxy_pass http://127.0.0.1:3000;", "\x7d"] := by decide +kernel
  have hnames : stripChars "  server_name a.example.com b.example.com;".toList
      = "server_name".toList ++ ([' '] ++ "a.example.com b.example.com".toList ++ ';' :: []) := by
    decide +kernel
  rw [Spells, hlines]
  refine .cons spelled_serverOpen (.cons ⟨by decide, ⟨_, _, _, hnames, by decide, spaces_single,
    by decide +kernel, by decide +kernel⟩, ?_⟩
    (.cons spelled_proxyPass (.cons spelled_close .nil)))
  exact not_upstreamIn (by decide +kernel)

end Hmn
