/-
  Hmn.Services.ProxyConfig — the lines of a reverse-proxy configuration.

  The parser reads a configuration line by line.  A line is the header of a
  Caddy site, names a server, proxies to a port of this machine, or is any
  other line; what the parser makes of a line depends on that alone
  (`readProxyLine_spelled`).  The model is
  `inspect.parse_reverse_proxy_config`.
-/
import Hmn.Framework.Lines
import Hmn.Services.DockerPorts

namespace Hmn

open Framework Framework.Regex Framework.Text

/-! ## §1. The parser. -/

/-- `[A-Za-z0-9.-]`. -/
def isHostChar (c : Char) : Bool := isAlnum c || c = '.' || c = '-'

/-- `^([A-Za-z0-9.-]+)\s*\{`. -/
def siteHeader : Regex := all [group 1 (plus isHostChar), .star isSpace, lit "\x7b"]

/-- `server_name\s+([^;]+);`. -/
def serverNameDirective : Regex :=
  all [lit "server_name", plus isSpace, group 1 (plus (· ≠ ';')), lit ";"]

/-- `(?:reverse_proxy|proxy_pass)\s+(?:https?://)?(?:127\.0\.0\.1|localhost):(?P<port>\d+)`. -/
def upstreamDirective : Regex :=
  all [any (lit "reverse_proxy") [lit "proxy_pass"], plus isSpace,
    opt (any (lit "http://") [lit "https://"]), any (lit "127.0.0.1") [lit "localhost"], lit ":",
    group 1 (plus isDigit)]

/-- `"." in domain`. -/
def dotted (domain : String) : Bool := '.' ∈ domain.toList

/-- `mappings`. -/
abbrev ProxyMappings := Table (Prod.fst : String × Int → String)

/-- What the loop over the lines carries. -/
structure ProxyScan where
  domains : List String
  mappings : ProxyMappings
  currentDomain : Option String

def ProxyScan.start : ProxyScan := ⟨[], .empty, none⟩

/-- One name of a `server_name` directive. -/
def addServerName (scan : ProxyScan) (domain : String) : ProxyScan :=
  if dotted domain ∧ domain ∉ scan.domains then
    { scan with domains := scan.domains ++ [domain], currentDomain := some domain }
  else scan

/-- The site whose header a line is. -/
def siteOf (line : String) : Option String :=
  ((siteHeader.matchAt none line.toList).map fun found => String.ofList (found.group 1)).filter
    dotted

/-- The names in a line. -/
def serverNamesOf (line : String) : List String :=
  match serverNameDirective.search line with
  | some found => Text.split (String.ofList (found.group 1))
  | none => []

/-- The digits of the port a line proxies to. -/
def upstreamOf (line : String) : Option (List Char) :=
  (upstreamDirective.search line).map (·.group 1)

/-- The body of the loop over the lines. -/
def readProxyLine (scan : ProxyScan) (rawLine : String) : Except PyError ProxyScan :=
  let line := Text.strip rawLine
  if line = "" ∨ Text.startsWith line "#" then .ok scan
  else
    match siteOf line with
    | some site => .ok { scan with domains := scan.domains ++ [site], currentDomain := some site }
    | none =>
      let scan := (serverNamesOf line).foldl addServerName scan
      match upstreamOf line, scan.currentDomain with
      | some digits, some domain => do
        let port ← intOfDigits digits
        pure { scan with mappings := scan.mappings.upsert (domain, port) }
      | _, _ => .ok scan

/-- `sorted(set(domains))`. -/
def sortedSet (domains : List String) : List String :=
  domains.dedup.insertionSort fun a b => a ≤ b

/-- `parse_reverse_proxy_config`. -/
def parseReverseProxyConfig (text : String) : Except PyError (List String × ProxyMappings) := do
  let scan ← (Text.splitLines text).foldlM readProxyLine .start
  pure (sortedSet scan.domains, scan.mappings)

/-! ## §2. Lines. -/

/-- A line of a configuration. -/
inductive ProxyLine where
  /-- The header of a Caddy site with these names. -/
  | site (names : List String)
  /-- `server_name`. -/
  | serverName (names : List String)
  /-- `reverse_proxy` or `proxy_pass` to a port of this machine. -/
  | upstream (port : Nat)
  /-- Any other line. -/
  | other
  deriving DecidableEq

/-- The names of a header one after the other, with commas and blanks between. -/
inductive Joined : List String → List Char → Prop where
  | single (name : String) : Joined [name] name.toList
  | more (name : String) {names : List String} {sep rest : List Char} (hne : sep ≠ [])
      (hsep : ∀ c ∈ sep, c = ',' ∨ isSpace c = true) (h : Joined names rest) :
      Joined (name :: names) (name.toList ++ sep ++ rest)

/-- The name of a site: dotted, of letters, digits, `.` and `-`. -/
def IsSiteName (name : String) : Prop :=
  dotted name = true ∧ ∀ c ∈ name.toList, isHostChar c = true

/-- A line that starts like the header of the one site `name`. -/
def SiteHeader (name cs : List Char) : Prop :=
  ∃ blank rest, cs = name ++ blank ++ '\x7b' :: rest ∧ name ≠ []
    ∧ (∀ c ∈ name, isHostChar c = true) ∧ Spaces blank

/-- A `server_name` directive from some place of the line on. -/
def ServerNameIn (cs : List Char) : Prop :=
  ∃ pre c post, cs = pre ++ ("server_name".toList ++ c :: post) ∧ isSpace c = true

/-- The directives that proxy. -/
def proxyDirectives : List String := ["reverse_proxy", "proxy_pass"]

/-- A directive, blanks, and a port of this machine behind them. -/
def UpstreamAt (digits rest cs : List Char) : Prop :=
  ∃ directive ∈ proxyDirectives, ∃ blank, blank ≠ [] ∧ Spaces blank
    ∧ ∃ scheme ∈ ["", "http://", "https://"], ∃ host ∈ ["127.0.0.1", "localhost"],
      cs = directive.toList ++ (blank ++ (scheme.toList ++ (host.toList ++ (':' :: digits ++ rest))))
        ∧ Digits digits ∧ ∀ c ∈ rest.head?, isDigit c = false

/-- A directive that proxies to this machine from some place of the line on. -/
def UpstreamIn (cs : List Char) : Prop :=
  ∃ pre suffix digits rest, cs = pre ++ suffix ∧ UpstreamAt digits rest suffix

/-- A line as it stands in the text, without the blanks around it.  A line
holds one directive. -/
def ProxyLine.Spelled (cs : List Char) : ProxyLine → Prop
  | .site names => (∀ name ∈ names, IsSiteName name)
      ∧ ∃ joined blank, cs = joined ++ blank ++ ['\x7b'] ∧ Joined names joined ∧ Spaces blank
  | .serverName names => names ≠ [] ∧ (∃ blank text tail,
      cs = "server_name".toList ++ (blank ++ text ++ ';' :: tail) ∧ blank ≠ [] ∧ Spaces blank
        ∧ (∀ c ∈ text, c ≠ ';') ∧ splitChars text = names.map String.toList)
      ∧ ¬ UpstreamIn cs
  | .upstream port => (∃ rest, UpstreamAt (portChars port) rest cs) ∧ ¬ ServerNameIn cs
  | .other => cs = [] ∨ cs.head? = some '#'
      ∨ ((∀ name, SiteHeader name cs → '.' ∉ name) ∧ ¬ ServerNameIn cs ∧ ¬ UpstreamIn cs)

/-! ## §3. What the patterns find. -/

/-- Where the pattern of `server_name` leads. -/
theorem serverNameDirective_matches {cur out : Cursor}
    (h : serverNameDirective.Matches cur out) :
    ∃ blank names rest, cur.rest = "server_name".toList ++ (blank ++ names ++ ';' :: rest)
      ∧ blank ≠ [] ∧ Spaces blank ∧ (∀ c ∈ names, c ≠ ';')
      ∧ out.groups = (1, names) :: cur.groups := by
  obtain ⟨mid₁, h₁, mid₂, h₂, mid₃, h₃, mid₄, h₄, rfl⟩ := h
  obtain ⟨rest₁, hrest₁, rfl⟩ := matches_lit.mp h₁
  obtain ⟨blank, rest₂, hne, hrest₂, hblank, rfl⟩ := matches_plus.mp h₂
  obtain ⟨names, rest₃, -, hrest₃, hnames, rfl⟩ := matches_group_plus.mp h₃
  obtain ⟨rest₄, hrest₄, rfl⟩ := matches_lit.mp h₄
  refine ⟨blank, names, rest₄, ?_, hne, hblank, fun c hc => by simpa using hnames c hc, rfl⟩
  simp only [Cursor.behind] at hrest₂ hrest₃ hrest₄
  rw [hrest₁, hrest₂, hrest₃, hrest₄, List.append_assoc]
  rfl

theorem serverNamesOf_none {line : String} (h : ¬ ServerNameIn line.toList) :
    serverNamesOf line = [] := by
  rw [serverNamesOf]
  cases hfind : serverNameDirective.search line with
  | none => rfl
  | some found =>
    obtain ⟨w, rest, heq, hmatch⟩ := find_sound _ _ hfind
    obtain ⟨blank, names, rest', hrest, hne, hblank, -, -⟩ := serverNameDirective_matches hmatch
    obtain ⟨c, blank, rfl⟩ := List.exists_cons_of_ne_nil hne
    refine absurd ⟨w, c, blank ++ names ++ ';' :: rest', ?_, hblank c List.mem_cons_self⟩ h
    rw [heq, show rest = _ from hrest]
    rfl

/-- The names in a directive at the start of a line. -/
theorem serverNamesOf_some {line : String} {blank text tail : List Char}
    (hline : line.toList = "server_name".toList ++ (blank ++ text ++ ';' :: tail))
    (hne : blank ≠ []) (hblank : Spaces blank) (htext : ∀ c ∈ text, c ≠ ';')
    (hnonempty : splitChars text ≠ []) :
    serverNamesOf line = (splitChars text).map String.ofList := by
  have htext_ne : text ≠ [] := by
    rintro rfl
    exact hnonempty rfl
  have hhere : serverNameDirective.Here none line.toList := by
    refine ⟨_, _, matches_lit.mpr ⟨_, hline, rfl⟩, _, matches_plus.mpr ⟨blank, text ++ ';' :: tail,
      hne, by simp [Cursor.behind], hblank, rfl⟩, _, matches_group_plus.mpr ⟨text, ';' :: tail,
      htext_ne, rfl, fun c hc => by simpa using htext c hc, rfl⟩, _, matches_lit.mpr ⟨tail, rfl, rfl⟩,
      rfl⟩
  obtain ⟨x, y, found, hxy, hfind, hmatch⟩ := find_upto [] hhere
  obtain ⟨rfl, rfl⟩ : x = [] ∧ y = [] := List.append_eq_nil_iff.mp hxy.symm
  obtain ⟨blank', names, rest, hrest, -, hblank', hnames, hgroups⟩ :=
    serverNameDirective_matches hmatch
  have hspaces : ∀ {cs : List Char}, Spaces cs → ∀ c ∈ cs, c ≠ ';' := fun h c hc heq =>
    absurd (h c hc) (by rw [heq]; decide)
  have htake : ∀ {cs ds tail : List Char}, Spaces cs → (∀ c ∈ ds, c ≠ ';') →
      (cs ++ ds ++ ';' :: tail).takeWhile (· ≠ ';') = cs ++ ds := by
    intro cs ds tail hcs hds
    rw [List.takeWhile_append_of_pos, List.takeWhile_cons_of_neg (by simp), List.append_nil]
    intro c hc
    rcases List.mem_append.mp hc with hc | hc
    · simpa using hspaces hcs c hc
    · simpa using hds c hc
  have heq : blank' ++ names = blank ++ text := by
    rw [← @htake _ _ rest hblank' hnames, ← @htake _ _ tail hblank htext]
    exact congrArg _ (List.append_cancel_left (hrest.symm.trans hline))
  have hsplit : splitChars names = splitChars text := by
    rw [← splitChars_spaces hblank' names, heq, splitChars_spaces hblank]
  have hgroup : found.group 1 = names := by
    rw [Found.group, hgroups]
    rfl
  rw [serverNamesOf, show serverNameDirective.search line = some found from hfind]
  simp only
  rw [Text.split, String.toList_ofList, hgroup, hsplit]

/-- Where a run of the pattern of upstreams leads. -/
theorem upstreamDirective_run {cur out : Cursor}
    (h : upstreamDirective.run cur some = some out) :
    ∃ digits rest, UpstreamAt digits rest cur.rest ∧ out.groups = (1, digits) :: cur.groups := by
  obtain ⟨mid₁, h₁, h⟩ := run_seq h
  obtain ⟨mid₂, h₂, h⟩ := run_seq h
  obtain ⟨mid₃, h₃, h⟩ := run_seq h
  obtain ⟨mid₄, h₄, h⟩ := run_seq h
  obtain ⟨mid₅, h₅, h⟩ := run_seq h
  obtain ⟨directive, hdirective, rest₁, hrest₁, rfl⟩ := matches_lit_or.mp h₁
  obtain ⟨blank, rest₂, hne, hrest₂, hblank, rfl⟩ := matches_plus.mp h₂
  obtain ⟨scheme, hscheme, rest₃, hrest₃, rfl⟩ : ∃ scheme ∈ ["", "http://", "https://"], ∃ rest,
      rest₂ = scheme.toList ++ rest
        ∧ mid₃ = ((cur.behind directive.toList rest₁).behind blank rest₂).behind scheme.toList rest := by
    rcases h₃ with h₃ | rfl
    · obtain ⟨scheme, hscheme, h₃⟩ := matches_lit_or.mp h₃
      exact ⟨scheme, List.mem_cons_of_mem "" hscheme, h₃⟩
    · exact ⟨"", List.mem_cons_self, rest₂, rfl, rfl⟩
  obtain ⟨host, hhost, rest₄, hrest₄, rfl⟩ := matches_lit_or.mp h₄
  obtain ⟨rest₅, hrest₅, rfl⟩ := matches_lit.mp h₅
  obtain ⟨hgroups, hdigits⟩ := run_group_plus h
  simp only [Cursor.behind] at hrest₂ hrest₄ hrest₅ hgroups hdigits
  refine ⟨rest₅.takeWhile isDigit, rest₅.dropWhile isDigit, ⟨directive, hdirective, blank, hne,
    hblank, scheme, hscheme, host, hhost, ?_, ⟨hdigits, fun c hc => List.mem_takeWhile_imp hc⟩, ?_⟩,
    hgroups⟩
  · rw [hrest₁, hrest₂, hrest₃, hrest₄, hrest₅, List.cons_append, List.takeWhile_append_dropWhile]
    rfl
  · intro c hc
    have hhead := List.head?_dropWhile_not isDigit rest₅
    rw [Option.mem_def.mp hc] at hhead
    simpa using hhead

/-- A directive that proxies to this machine is found. -/
theorem upstreamDirective_isSome {digits rest cs : List Char} (h : UpstreamAt digits rest cs)
    (prev : Option Char) : (upstreamDirective.run ⟨prev, cs, []⟩ some).isSome = true := by
  obtain ⟨directive, hdirective, blank, hne, hblank, scheme, hscheme, host, hhost, rfl,
    ⟨hdigits, hdigit⟩, -⟩ := h
  have hscheme' : ∀ cur rest, cur.rest = scheme.toList ++ rest →
      (opt (any (lit "http://") [lit "https://"])).Matches cur (cur.behind scheme.toList rest) := by
    intro cur rest hrest
    rcases List.mem_cons.mp hscheme with rfl | hscheme
    · obtain rfl : cur.rest = rest := hrest
      exact Or.inr rfl
    · exact Or.inl (matches_lit_or.mpr ⟨scheme, hscheme, rest, hrest, rfl⟩)
  exact (run_isSome_iff _).mpr ⟨_, ⟨_, matches_lit_or.mpr ⟨directive, hdirective, _, rfl, rfl⟩, _,
    matches_plus.mpr ⟨blank, _, hne, rfl, hblank, rfl⟩, _, hscheme' _ _ rfl, _,
    matches_lit_or.mpr ⟨host, hhost, _, rfl, rfl⟩, _, matches_lit.mpr ⟨digits ++ rest, rfl, rfl⟩, _,
    matches_group_plus.mpr ⟨digits, rest, hdigits, rfl, hdigit, rfl⟩, rfl⟩, rfl⟩

theorem upstreamOf_none {line : String} (h : ¬ UpstreamIn line.toList) : upstreamOf line = none := by
  rw [upstreamOf, Option.map_eq_none_iff]
  cases hfind : upstreamDirective.search line with
  | none => rfl
  | some found =>
    obtain ⟨w, suffix, heq, hmatch⟩ := find_sound _ _ hfind
    have hsome : (upstreamDirective.run ⟨lastOf none w, suffix, []⟩ some).isSome = true :=
      (run_isSome_iff _).mpr ⟨_, hmatch, rfl⟩
    obtain ⟨out, hout⟩ := Option.isSome_iff_exists.mp hsome
    obtain ⟨digits, rest, hat, -⟩ := upstreamDirective_run hout
    exact absurd ⟨w, suffix, digits, rest, heq, hat⟩ h

theorem directive_inj {directive directive' : String} {cs cs' : List Char}
    (h : directive ∈ proxyDirectives) (h' : directive' ∈ proxyDirectives)
    (heq : directive.toList ++ cs = directive'.toList ++ cs') : cs = cs' := by
  simp only [proxyDirectives, List.mem_cons, List.not_mem_nil, or_false] at h h'
  rcases h with rfl | rfl <;> rcases h' with rfl | rfl <;> simp at heq <;> exact heq

theorem target_not_space {scheme host : String} (hscheme : scheme ∈ ["", "http://", "https://"])
    (hhost : host ∈ ["127.0.0.1", "localhost"]) (cs : List Char) :
    (scheme.toList ++ (host.toList ++ cs)).dropWhile isSpace
      = scheme.toList ++ (host.toList ++ cs) := by
  simp only [List.mem_cons, List.not_mem_nil, or_false] at hscheme hhost
  rcases hscheme with rfl | rfl | rfl <;> rcases hhost with rfl | rfl <;> rfl

theorem target_inj {scheme scheme' host host' : String} {cs cs' : List Char}
    (hscheme : scheme ∈ ["", "http://", "https://"]) (hhost : host ∈ ["127.0.0.1", "localhost"])
    (hscheme' : scheme' ∈ ["", "http://", "https://"])
    (hhost' : host' ∈ ["127.0.0.1", "localhost"])
    (heq : scheme.toList ++ (host.toList ++ ':' :: cs)
      = scheme'.toList ++ (host'.toList ++ ':' :: cs')) : cs = cs' := by
  simp only [List.mem_cons, List.not_mem_nil, or_false] at hscheme hhost hscheme' hhost'
  rcases hscheme with rfl | rfl | rfl <;> rcases hhost with rfl | rfl <;>
    rcases hscheme' with rfl | rfl | rfl <;> rcases hhost' with rfl | rfl <;>
    simp at heq <;> exact heq

/-- The port a directive proxies to is one. -/
theorem UpstreamAt.unique {digits digits' rest rest' cs : List Char}
    (h : UpstreamAt digits rest cs) (h' : UpstreamAt digits' rest' cs) : digits = digits' := by
  obtain ⟨directive, hdirective, blank, -, hblank, scheme, hscheme, host, hhost, rfl, hdigits,
    hrest⟩ := h
  obtain ⟨directive', hdirective', blank', -, hblank', scheme', hscheme', host', hhost', heq,
    hdigits', hrest'⟩ := h'
  have hblanks := congrArg (List.dropWhile isSpace) (directive_inj hdirective hdirective' heq)
  rw [dropWhile_spaces hblank, dropWhile_spaces hblank', target_not_space hscheme hhost,
    target_not_space hscheme' hhost'] at hblanks
  have htail : digits ++ rest = digits' ++ rest' :=
    target_inj hscheme hhost hscheme' hhost' hblanks
  have htake : ∀ {digits rest : List Char}, Digits digits → (∀ c ∈ rest.head?, isDigit c = false) →
      (digits ++ rest).takeWhile isDigit = digits := by
    intro digits rest hdigits hrest
    rw [List.takeWhile_append_of_pos hdigits.2]
    cases rest with
    | nil => rw [List.takeWhile_nil, List.append_nil]
    | cons c rest => rw [List.takeWhile_cons_of_neg (by simp [hrest c rfl]), List.append_nil]
  rw [← htake hdigits hrest, htail, htake hdigits' hrest']

theorem upstreamOf_some {line : String} {digits rest : List Char}
    (h : UpstreamAt digits rest line.toList) : upstreamOf line = some digits := by
  obtain ⟨out, hout⟩ := Option.isSome_iff_exists.mp (upstreamDirective_isSome h none)
  obtain ⟨digits', rest', hat, hgroups⟩ := upstreamDirective_run hout
  have hfind : upstreamDirective.search line = some ⟨[], line.toList.take (line.toList.length
      - out.rest.length), out⟩ := find_of_matchAt (by rw [matchAt, hout]; rfl)
  rw [upstreamOf, hfind, Option.map_some, Found.group, hgroups, h.unique hat]
  rfl

/-! ## §4. Headers of sites. -/

/-- What is matched of a header. -/
theorem siteHeader_matches {cur out : Cursor} (h : siteHeader.Matches cur out) :
    ∃ name, SiteHeader name cur.rest ∧ out.groups = (1, name) :: cur.groups := by
  obtain ⟨mid₁, h₁, mid₂, ⟨blank, rest₂, hrest₂, hblank, rfl⟩, mid₃, h₃, rfl⟩ := h
  obtain ⟨name, rest₁, hne, hrest₁, hname, rfl⟩ := matches_group_plus.mp h₁
  obtain ⟨rest₃, hrest₃, rfl⟩ := matches_lit.mp h₃
  simp only [Cursor.behind] at hrest₂ hrest₃
  refine ⟨name, ⟨blank, rest₃, ?_, hne, hname, hblank⟩, rfl⟩
  rw [hrest₁, hrest₂, hrest₃, List.append_assoc]
  rfl

theorem isHostChar_of_isSpace {c : Char} (h : isSpace c = true) : isHostChar c = false := by
  rw [isHostChar, Bool.or_eq_false_iff, Bool.or_eq_false_iff]
  refine ⟨⟨?_, ?_⟩, ?_⟩
  · simp only [isSpace, isAlnum, Bool.or_eq_true, Bool.and_eq_true, decide_eq_true_eq,
      beq_iff_eq, Bool.or_eq_false_iff, Bool.and_eq_false_iff, decide_eq_false_iff_not] at h ⊢
    omega
  · exact decide_eq_false fun heq => absurd h (by rw [heq]; decide)
  · exact decide_eq_false fun heq => absurd h (by rw [heq]; decide)

theorem SiteHeader.eq_takeWhile {name cs : List Char} (h : SiteHeader name cs) :
    name = cs.takeWhile isHostChar := by
  obtain ⟨blank, rest, rfl, -, hname, hblank⟩ := h
  rw [List.append_assoc, List.takeWhile_append_of_pos hname]
  cases blank with
  | nil => rw [List.nil_append, List.takeWhile_cons_of_neg (by decide), List.append_nil]
  | cons c blank =>
    rw [List.cons_append, List.takeWhile_cons_of_neg, List.append_nil]
    simp [isHostChar_of_isSpace (hblank c List.mem_cons_self)]

theorem siteOf_none {line : String} (h : ∀ name, SiteHeader name line.toList → '.' ∉ name) :
    siteOf line = none := by
  rw [siteOf, Option.filter_eq_none_iff]
  intro site hsite
  obtain ⟨found, hfound, rfl⟩ := Option.map_eq_some_iff.mp hsite
  obtain ⟨name, hheader, hgroups⟩ := siteHeader_matches (matchAt_sound hfound)
  have hgroup : found.group 1 = name := by
    rw [Found.group, hgroups]
    rfl
  simpa [dotted, hgroup] using h name hheader

theorem siteOf_some {line name : String} (h : SiteHeader name.toList line.toList)
    (hdotted : dotted name = true) : siteOf line = some name := by
  have hhere : siteHeader.Here none line.toList := by
    obtain ⟨blank, rest, hline, hne, hname, hblank⟩ := h
    rw [List.append_assoc] at hline
    exact ⟨_, _, matches_group_plus.mpr ⟨name.toList, _, hne, hline, hname, rfl⟩, _,
      ⟨blank, _, rfl, hblank, rfl⟩, _, matches_lit.mpr ⟨rest, rfl, rfl⟩, rfl⟩
  cases hat : siteHeader.matchAt none line.toList with
  | none => exact absurd hhere (matchAt_eq_none.mp hat)
  | some found =>
    obtain ⟨name', hheader, hgroups⟩ := siteHeader_matches (matchAt_sound hat)
    have hgroup : found.group 1 = name.toList := by
      rw [Found.group, hgroups, h.eq_takeWhile, ← hheader.eq_takeWhile]
      rfl
    rw [siteOf, hat, Option.map_some, hgroup, String.ofList_toList, Option.filter_some,
      if_pos hdotted]

/-! ## §5. What a line does. -/

/-- The state after a line. -/
def ProxyScan.read (scan : ProxyScan) : ProxyLine → Except PyError ProxyScan
  | .site [name] => .ok { scan with domains := scan.domains ++ [name], currentDomain := some name }
  | .site _ => .ok scan
  | .serverName names => .ok (names.foldl addServerName scan)
  | .upstream port =>
    match scan.currentDomain with
    | some domain => do
      let number ← intOfDigits (portChars port)
      pure { scan with mappings := scan.mappings.upsert (domain, number) }
    | none => .ok scan
  | .other => .ok scan

theorem IsSiteName.head {name : String} (h : IsSiteName name) :
    ∃ c cs, name.toList = c :: cs ∧ isHostChar c = true := by
  have hne : name.toList ≠ [] := fun hnil => by
    have hdot := h.1
    rw [dotted, hnil] at hdot
    cases hdot
  obtain ⟨c, cs, hcs⟩ := List.exists_cons_of_ne_nil hne
  exact ⟨c, cs, hcs, h.2 c (by rw [hcs]; exact List.mem_cons_self)⟩

theorem Joined.chars {names : List String} {cs : List Char} (h : Joined names cs)
    (hnames : ∀ name ∈ names, IsSiteName name) :
    ∀ c ∈ cs, isHostChar c = true ∨ c = ',' ∨ isSpace c = true := by
  induction h with
  | single name => exact fun c hc => Or.inl ((hnames name List.mem_cons_self).2 c hc)
  | more name hne hsep h ih =>
    obtain ⟨hname, hnames⟩ := List.forall_mem_cons.mp hnames
    intro c hc
    rcases List.mem_append.mp hc with hc | hc
    · rcases List.mem_append.mp hc with hc | hc
      · exact Or.inl (hname.2 c hc)
      · exact Or.inr (hsep c hc)
    · exact ih hnames c hc

theorem Joined.head {names : List String} {cs : List Char} (h : Joined names cs)
    (hnames : ∀ name ∈ names, IsSiteName name) : ∃ c rest, cs = c :: rest ∧ isHostChar c = true := by
  cases h with
  | single name => exact (hnames name List.mem_cons_self).head
  | more name hne hsep h =>
    obtain ⟨c, rest, hcs, hc⟩ := (hnames name List.mem_cons_self).head
    exact ⟨c, _, by rw [hcs]; rfl, hc⟩

/-- Behind the separator of two names stands no brace. -/
theorem first_behind_sep {sep : List Char} (hsep : ∀ c ∈ sep, c = ',' ∨ isSpace c = true) {c : Char}
    (hc : isHostChar c = true) (rest : List Char) :
    ∃ d rest', (sep ++ c :: rest).dropWhile isSpace = d :: rest' ∧ d ≠ '{' := by
  have hspace : isSpace c = false := by
    cases hs : isSpace c with
    | false => rfl
    | true => rw [isHostChar_of_isSpace hs] at hc; cases hc
  induction sep with
  | nil =>
    refine ⟨c, rest, List.dropWhile_cons_of_neg (by simp [hspace]), ?_⟩
    rintro rfl
    exact absurd hc (by decide)
  | cons d sep ih =>
    obtain ⟨hd, hsep⟩ := List.forall_mem_cons.mp hsep
    rcases hd with rfl | hd
    · exact ⟨',', _, List.dropWhile_cons_of_neg (by decide), by decide⟩
    · rw [List.cons_append, List.dropWhile_cons_of_pos hd]
      exact ih hsep

/-- The header of several sites does not read as the header of one. -/
theorem not_siteHeader_of_joined {name : String} {names : List String} {sep joined tail : List Char}
    (hname : IsSiteName name) (hnames : ∀ n ∈ names, IsSiteName n) (hne : sep ≠ [])
    (hsep : ∀ c ∈ sep, c = ',' ∨ isSpace c = true) (hjoined : Joined names joined)
    (site : List Char) : ¬ SiteHeader site (name.toList ++ sep ++ joined ++ tail) := by
  intro hheader
  obtain ⟨c, rest, rfl, hc⟩ := hjoined.head hnames
  have hsite : site = name.toList := by
    rw [hheader.eq_takeWhile, List.append_assoc, List.append_assoc,
      List.takeWhile_append_of_pos hname.2]
    obtain ⟨d, sep, rfl⟩ := List.exists_cons_of_ne_nil hne
    rw [List.cons_append, List.takeWhile_cons_of_neg, List.append_nil]
    rcases hsep d List.mem_cons_self with rfl | hd
    · decide
    · simp [isHostChar_of_isSpace hd]
  obtain ⟨blank, rest', hcs, -, -, hblank⟩ := hheader
  rw [hsite, List.append_assoc, List.append_assoc, List.append_assoc] at hcs
  obtain ⟨d, rest'', hfirst, hd⟩ := first_behind_sep hsep hc (rest ++ tail)
  have hbrace := congrArg (List.dropWhile isSpace) (List.append_cancel_left hcs)
  rw [List.cons_append, hfirst, dropWhile_spaces hblank,
    List.dropWhile_cons_of_neg (by decide)] at hbrace
  exact hd (List.cons.inj hbrace).1

/-- A line that starts with a keyword with an underscore is no header. -/
theorem not_siteHeader_of_underscore {word rest : List Char} (hword : ∀ c ∈ word, isHostChar c = true)
    (site : List Char) : ¬ SiteHeader site (word ++ '_' :: rest) := by
  intro hheader
  have hsite : site = word := by
    rw [hheader.eq_takeWhile, List.takeWhile_append_of_pos hword,
      List.takeWhile_cons_of_neg (by decide), List.append_nil]
  obtain ⟨blank, rest', hcs, -, -, hblank⟩ := hheader
  rw [hsite, List.append_assoc] at hcs
  have hbehind := List.append_cancel_left hcs
  cases blank with
  | nil => exact absurd (List.cons.inj hbehind).1 (by decide)
  | cons c blank =>
    obtain ⟨rfl, -⟩ := List.cons.inj hbehind
    exact absurd (hblank '_' List.mem_cons_self) (by decide)

theorem UpstreamAt.starts {digits rest cs : List Char} (h : UpstreamAt digits rest cs) :
    ∃ word rest', cs = word ++ '_' :: rest' ∧ (∀ c ∈ word, isHostChar c = true)
      ∧ ∃ c word', word = c :: word' ∧ c ≠ '#' := by
  obtain ⟨directive, hdirective, blank, -, -, scheme, -, host, -, rfl, -, -⟩ := h
  simp only [proxyDirectives, List.mem_cons, List.not_mem_nil, or_false] at hdirective
  rcases hdirective with rfl | rfl
  · exact ⟨"reverse".toList, _, rfl, by decide, 'r', _, rfl, by decide⟩
  · exact ⟨"proxy".toList, _, rfl, by decide, 'p', _, rfl, by decide⟩

/-- What is made of a line that is neither blank nor a comment. -/
theorem readProxyLine_eq (scan : ProxyScan) {raw : String} {c : Char} {rest : List Char}
    (hline : stripChars raw.toList = c :: rest) (hc : c ≠ '#') :
    readProxyLine scan raw =
      match siteOf (Text.strip raw) with
      | some site =>
        .ok { scan with domains := scan.domains ++ [site], currentDomain := some site }
      | none =>
        let scan := (serverNamesOf (Text.strip raw)).foldl addServerName scan
        match upstreamOf (Text.strip raw), scan.currentDomain with
        | some digits, some domain => do
          let port ← intOfDigits digits
          pure { scan with mappings := scan.mappings.upsert (domain, port) }
        | _, _ => .ok scan := by
  rw [readProxyLine, if_neg]
  rintro (hempty | hcomment)
  · have hnil := congrArg String.toList hempty
    rw [Text.strip, String.toList_ofList, hline] at hnil
    cases hnil
  · rw [Text.startsWith, Text.strip, String.toList_ofList, hline] at hcomment
    exact hc (by simpa using hcomment : '#' = c).symm

/-- A line without an underscore has neither directive. -/
theorem not_directive_of_no_underscore {cs : List Char} (h : ∀ c ∈ cs, c ≠ '_') :
    ¬ ServerNameIn cs ∧ ¬ UpstreamIn cs := by
  constructor
  · rintro ⟨pre, c, post, rfl, -⟩
    exact h '_' (by simp) rfl
  · rintro ⟨pre, suffix, digits, rest, rfl, hat⟩
    obtain ⟨word, rest', rfl, -⟩ := hat.starts
    exact h '_' (by simp) rfl

theorem header_no_underscore {names : List String} {joined blank : List Char}
    (hnames : ∀ name ∈ names, IsSiteName name) (hjoined : Joined names joined)
    (hblank : Spaces blank) : ∀ c ∈ joined ++ blank ++ ['{'], c ≠ '_' := by
  rintro c hc rfl
  simp only [List.mem_append, List.mem_singleton] at hc
  rcases hc with (hc | hc) | hc
  · rcases hjoined.chars hnames _ hc with hc | hc | hc <;> revert hc <;> decide
  · exact absurd (hblank _ hc) (by decide)
  · exact absurd hc (by decide)

section Line

variable {raw : String} (scan : ProxyScan)

theorem readProxyLine_site {names : List String}
    (h : (ProxyLine.site names).Spelled (stripChars raw.toList)) :
    readProxyLine scan raw = scan.read (.site names) := by
  have htext : (Text.strip raw).toList = stripChars raw.toList := String.toList_ofList
  obtain ⟨hnames, joined, blank, hcs, hjoined, hblank⟩ := h
  obtain ⟨hserver, hupstream⟩ :=
    not_directive_of_no_underscore (header_no_underscore hnames hjoined hblank)
  obtain ⟨c, rest, hhead, hc⟩ := hjoined.head hnames
  have hsharp : c ≠ '#' := by
    rintro rfl
    exact absurd hc (by decide)
  have hline : stripChars raw.toList = c :: (rest ++ blank ++ ['{']) := by
    rw [hcs, hhead]
    rfl
  rw [readProxyLine_eq scan hline hsharp]
  rw [hcs] at htext
  cases hjoined with
  | single name =>
    have hname := hnames name List.mem_cons_self
    have hheader : SiteHeader name.toList (Text.strip raw).toList :=
      ⟨blank, [], htext, by rw [hhead]; exact List.cons_ne_nil c rest, hname.2, hblank⟩
    rw [siteOf_some hheader hname.1]
    rfl
  | more name hne hsep hrest =>
    obtain ⟨hname, hnames⟩ := List.forall_mem_cons.mp hnames
    have hnone : siteOf (Text.strip raw) = none := by
      refine siteOf_none fun site hheader => absurd hheader ?_
      rw [htext, List.append_assoc]
      exact not_siteHeader_of_joined hname hnames hne hsep hrest site
    rw [hnone, serverNamesOf_none (htext ▸ hserver), upstreamOf_none (htext ▸ hupstream)]
    cases hrest <;> rfl

theorem readProxyLine_serverName {names : List String}
    (h : (ProxyLine.serverName names).Spelled (stripChars raw.toList)) :
    readProxyLine scan raw = scan.read (.serverName names) := by
  have htext : (Text.strip raw).toList = stripChars raw.toList := String.toList_ofList
  obtain ⟨hne, ⟨blank, text, tail, hcs, hblank_ne, hblank, hsemicolon, hsplit⟩, hupstream⟩ := h
  have hline : stripChars raw.toList = 's' :: ("erver_name".toList ++ (blank ++ text ++ ';' :: tail)) :=
    hcs
  have hnone : siteOf (Text.strip raw) = none := by
    refine siteOf_none fun site hheader => absurd hheader ?_
    rw [htext, hcs]
    exact @not_siteHeader_of_underscore "server".toList _ (by decide) site
  have hnames : serverNamesOf (Text.strip raw) = names := by
    rw [serverNamesOf_some (htext.trans hcs) hblank_ne hblank hsemicolon (by simp [hsplit, hne]),
      hsplit, List.map_map]
    exact (List.map_congr_left fun name _ => String.ofList_toList).trans (List.map_id names)
  rw [readProxyLine_eq scan hline (by decide), hnone, hnames, upstreamOf_none (htext ▸ hupstream)]
  rfl

theorem readProxyLine_upstream {port : Nat}
    (h : (ProxyLine.upstream port).Spelled (stripChars raw.toList)) :
    readProxyLine scan raw = scan.read (.upstream port) := by
  have htext : (Text.strip raw).toList = stripChars raw.toList := String.toList_ofList
  obtain ⟨⟨rest, hat⟩, hserver⟩ := h
  have hat' : UpstreamAt (portChars port) rest (Text.strip raw).toList := by
    rw [htext]
    exact hat
  have hserver' : ¬ ServerNameIn (Text.strip raw).toList := by
    rw [htext]
    exact hserver
  obtain ⟨word, rest', hcs, hword, c, word', rfl, hsharp⟩ := hat.starts
  have hnone : siteOf (Text.strip raw) = none := by
    refine siteOf_none fun site hheader => absurd hheader ?_
    rw [htext, hcs]
    exact not_siteHeader_of_underscore hword site
  rw [readProxyLine_eq scan hcs hsharp, hnone, serverNamesOf_none hserver',
    upstreamOf_some hat', ProxyScan.read]
  dsimp only [List.foldl_nil]
  cases scan.currentDomain <;> rfl

theorem readProxyLine_other (h : ProxyLine.other.Spelled (stripChars raw.toList)) :
    readProxyLine scan raw = .ok scan := by
  have htext : (Text.strip raw).toList = stripChars raw.toList := String.toList_ofList
  by_cases hskip : Text.strip raw = "" ∨ Text.startsWith (Text.strip raw) "#" = true
  · rw [readProxyLine, if_pos hskip]
  · obtain ⟨hempty, hcomment⟩ := not_or.mp hskip
    rcases h with hnil | hhead | ⟨hsite, hserver, hupstream⟩
    · exact absurd (String.toList_inj.mp (by rw [htext, hnil]; rfl)) hempty
    · obtain ⟨rest, hrest⟩ := List.head?_eq_some_iff.mp hhead
      refine absurd ?_ hcomment
      rw [Text.startsWith, htext, hrest]
      rfl
    · rw [readProxyLine, if_neg hskip, siteOf_none (htext ▸ hsite),
        serverNamesOf_none (htext ▸ hserver), upstreamOf_none (htext ▸ hupstream)]
      rfl

/-- **What the parser makes of a line is what the line is.** -/
theorem readProxyLine_spelled {line : ProxyLine} (h : line.Spelled (stripChars raw.toList)) :
    readProxyLine scan raw = scan.read line := by
  cases line with
  | site names => exact readProxyLine_site scan h
  | serverName names => exact readProxyLine_serverName scan h
  | upstream port => exact readProxyLine_upstream scan h
  | other => exact readProxyLine_other scan h

end Line

end Hmn
