import PolyrepoTemplate.Config.LoggerConfig
import PolyrepoTemplate.Config.PostgresConfig
import PolyrepoTemplate.Text.Query

namespace PolyrepoTemplate

open Text

inductive Environment where
  | localMachine
  | dev
  | staging
  | prod
  deriving DecidableEq, Repr

def Environment.value : Environment → String
  | .localMachine => "local"
  | .dev => "dev"
  | .staging => "staging"
  | .prod => "prod"

/-- The fields the production check reads. -/
structure AppSettings (builder : PostgresDsn) where
  env : Environment := .dev
  minLogLevel : LogLevel := .info
  postgres : PostgresConfig builder

variable {builder : PostgresDsn}

/-- What `_enforce_production_invariants` raises. -/
def AppSettings.productionError (s : AppSettings builder) : Option String :=
  if s.env ≠ .prod then none
  else if s.minLogLevel = .debug then
    some ("LOGGER__MIN_LOG_LEVEL=debug is not allowed when ENV=prod: " ++
      "debug logging risks writing sensitive payloads to the log stream.")
  else if s.postgres.sslMode = .disable then
    some ("POSTGRES__SSL_MODE=disable is not allowed when ENV=prod: " ++
      "database traffic must be encrypted in production.")
  else none

structure AppConfig (builder : PostgresDsn) extends AppSettings builder where
  production : toAppSettings.productionError = none

def AppConfig.validate (s : AppSettings builder) : Except ValidationError (AppConfig builder) :=
  match h : s.productionError with
  | none => .ok ⟨s, h⟩
  | some msg => .error ⟨"AppConfig", [⟨"", "value_error", "Value error, " ++ msg⟩]⟩

theorem AppConfig.production_safe (cfg : AppConfig builder) (hprod : cfg.env = .prod) :
    cfg.postgres.sslMode ≠ .disable ∧ cfg.minLogLevel ≠ .debug := by
  have h := cfg.production
  simp only [AppSettings.productionError, hprod, ne_eq, not_true_eq_false, if_false] at h
  split at h
  · cases h
  · split at h
    · cases h
    · exact ⟨‹_›, ‹_›⟩

namespace PostgresSettings

variable {s : PostgresSettings}

def AgreesWith (s : PostgresSettings) (dsn : String) : Prop :=
  ∃ url, Url.parse dsn.toList = some url ∧ url.path = '/' :: s.database.toList ∧
    Url.valuesOf "sslmode" url.query = [utf8 s.sslMode.value.toList]

/-- Host and database do not reach into the next part of the URL; or the host goes on with the
very path the database would give, and with a query that brings the `sslmode`: the pieces that
end in it, or within the database, have it once, and the last of either does not begin another. -/
def Contained (s : PostgresSettings) : Prop :=
  '?' ∉ s.database.toList ∧
    ((∀ c ∈ s.host.toList, Url.endsAuthority c = false) ∨
    ∃ server query, s.host.toList = server ++ '/' :: (s.database.toList ++ '?' :: query) ∧
      (∀ c ∈ server, Url.endsAuthority c = false) ∧
      (∀ piece ∈ (query.splitOn '&').getLast?, ¬ Url.Sets "sslmode" piece) ∧
      (∀ piece ∈ (s.database.toList.splitOn '&').tail.getLast?, ¬ Url.Sets "sslmode" piece) ∧
      Url.assigned "sslmode" ((query.splitOn '&').dropLast ++
        (s.database.toList.splitOn '&').tail.dropLast) = [utf8 s.sslMode.value.toList])

/-- However the text after the credentials divides into authority, path and query,
that is how it is parsed. -/
theorem parse_dsn (s : PostgresSettings) {authority : List Char} (path query : List Char)
    (htext : s.host.toList ++ (s.portText ++ '/' :: (s.database.toList ++ '?' :: s.sslQuery)) =
      authority ++ (path ++ '?' :: query))
    (hauthority : ∀ c ∈ authority, Url.endsAuthority c = false)
    (hslash : path = [] ∨ ∃ rest, path = '/' :: rest) (hpath : '?' ∉ path) :
    Url.parse s.dsnParts.text.toList = some ⟨"postgresql+psycopg".toList,
      s.dsnParts.userinfo.toList ++ authority, path, query⟩ := by
  have hserver : s.dsnParts.server.toList = s.host.toList ++ s.portText :=
    s.dsnParts.toList_server
  rw [toList_dsn, DsnParts.authority, hserver, List.append_assoc, List.append_assoc, htext,
    ← List.append_assoc s.dsnParts.userinfo.toList]
  refine Url.parse_build (by decide) (fun c hc => ?_) hslash hpath
  obtain hc | hc := List.mem_append.mp hc
  · exact (s.userinfo_inside c hc).1
  · exact hauthority c hc

theorem valuesOf_sslQuery (s : PostgresSettings) :
    Url.valuesOf "sslmode" s.sslQuery = [utf8 s.sslMode.value.toList] := by
  unfold sslQuery
  cases s.sslMode <;> decide

theorem agrees_of_parse {url : Url} (h : Url.parse s.dsnParts.text.toList = some url) :
    s.AgreesWith s.dsnParts.text ↔ url.path = '/' :: s.database.toList ∧
      Url.valuesOf "sslmode" url.query = [utf8 s.sslMode.value.toList] := by
  simp [AgreesWith, h]

theorem notMem_portText : '?' ∉ s.portText :=
  fun h => absurd (s.portText_inside '?' h).1 (by decide)

theorem delimits_sslMode (mode : SslMode) {c : Char} (hc : c ∈ [':', '?']) :
    Url.Delimits c (utf8 mode.value.toList) := by
  rw [List.mem_cons, List.mem_singleton] at hc
  obtain rfl | rfl := hc
  · cases mode <;> exact ⟨by decide, by decide, _, List.mem_cons_self, by decide⟩
  · cases mode <;> exact ⟨by decide, by decide, _, List.mem_cons_self, by decide⟩

theorem delimits_sslmode {c : Char} (hc : c ∈ [':', '?']) :
    Url.Delimits c (utf8 "sslmode".toList) := by
  rw [List.mem_cons, List.mem_singleton] at hc
  obtain rfl | rfl := hc
  · exact ⟨by decide, by decide, _, List.mem_cons_self, by decide⟩
  · exact ⟨by decide, by decide, _, List.mem_cons_self, by decide⟩

theorem valuesOf_hostQuery (s : PostgresSettings) (query : List Char) :
    Url.valuesOf "sslmode" (query ++ (s.portText ++ '/' :: (s.database.toList ++
      '?' :: s.sslQuery))) = [utf8 s.sslMode.value.toList] ↔
    (∀ piece ∈ (query.splitOn '&').getLast?, ¬ Url.Sets "sslmode" piece) ∧
      (∀ piece ∈ (s.database.toList.splitOn '&').tail.getLast?, ¬ Url.Sets "sslmode" piece) ∧
      Url.assigned "sslmode" ((query.splitOn '&').dropLast ++
        (s.database.toList.splitOn '&').tail.dropLast) = [utf8 s.sslMode.value.toList] := by
  have hport : '&' ∉ (toString s.port).toList ++ ['/'] := by
    rw [List.mem_append, List.mem_singleton]
    rintro (hmem | hslash)
    · exact (bare_toString s.port).notMem (by decide) (by decide) hmem
    · exact absurd hslash (by decide)
  have hmode : '&' ∉ s.sslQuery := by
    unfold sslQuery
    cases s.sslMode <;> decide
  have htext : query ++ (s.portText ++ '/' :: (s.database.toList ++ '?' :: s.sslQuery)) =
      query ++ ':' :: (((toString s.port).toList ++ ['/']) ++ (s.database.toList ++
        '?' :: s.sslQuery)) := by
    rw [portText, List.cons_append, List.append_assoc (toString s.port).toList,
      List.singleton_append]
  rw [htext]
  exact Url.valuesOf_continued (delimits_sslmode (by decide)) (delimits_sslMode _ (by decide))
    (delimits_sslmode (by decide)) (delimits_sslMode _ (by decide)) query s.database.toList hport
    hmode

theorem agrees_of_host (hhost : ∀ c ∈ s.host.toList, Url.endsAuthority c = false) :
    s.AgreesWith s.dsnParts.text ↔ '?' ∉ s.database.toList := by
  have hauthority : ∀ c ∈ s.host.toList ++ s.portText, Url.endsAuthority c = false := by
    intro c hc
    exact (List.mem_append.mp hc).elim (hhost c) fun hc => (s.portText_inside c hc).1
  obtain hclean | ⟨front, c, back, hdatabase, hfront, hc⟩ :=
    split_first (· == '?') s.database.toList
  · have hnot : '?' ∉ s.database.toList := fun hmem => by simpa using hclean '?' hmem
    have hparse := s.parse_dsn ('/' :: s.database.toList) s.sslQuery (by simp) hauthority
      (.inr ⟨_, rfl⟩) (by simpa using hnot)
    rw [agrees_of_parse hparse]
    simp [hnot, valuesOf_sslQuery]
  · -- the path ends inside the database
    obtain rfl : c = '?' := by simpa using hc
    have hnot : '?' ∉ front := fun hmem => by simpa using hfront '?' hmem
    have hparse := s.parse_dsn ('/' :: front) (back ++ '?' :: s.sslQuery)
      (by simp [hdatabase]) hauthority (.inr ⟨_, rfl⟩) (by simpa using hnot)
    rw [agrees_of_parse hparse]
    simp [hdatabase]

theorem agrees_of_path {server rest : List Char} (hhost : s.host.toList = server ++ '/' :: rest)
    (hserver : ∀ c ∈ server, Url.endsAuthority c = false) :
    s.AgreesWith s.dsnParts.text ↔ '?' ∉ s.database.toList ∧
      ∃ query, rest = s.database.toList ++ '?' :: query ∧
        Url.valuesOf "sslmode" (query ++ (s.portText ++ '/' :: (s.database.toList ++
          '?' :: s.sslQuery))) = [utf8 s.sslMode.value.toList] := by
  obtain hclean | ⟨path, c, query, rfl, hpath, hc⟩ := split_first (· == '?') rest
  · have hrest : '?' ∉ rest := fun hmem => by simpa using hclean '?' hmem
    have hquery : ¬ ∃ query, rest = s.database.toList ++ '?' :: query ∧
        Url.valuesOf "sslmode" (query ++ (s.portText ++ '/' :: (s.database.toList ++
          '?' :: s.sslQuery))) = [utf8 s.sslMode.value.toList] := by
      rintro ⟨query, hrest', -⟩
      exact hrest (by simp [hrest'])
    -- the path goes on through the port to the end of the database, or to a `?` in it
    obtain ⟨front, query, htext, hfront, hlength⟩ : ∃ front query,
        s.database.toList ++ '?' :: s.sslQuery = front ++ '?' :: query ∧ '?' ∉ front ∧
          (front = s.database.toList ∨ '?' ∈ s.database.toList) := by
      obtain hdatabase | ⟨front, c, back, hdatabase, hfront, hc⟩ :=
        split_first (· == '?') s.database.toList
      · exact ⟨_, _, rfl, fun hmem => by simpa using hdatabase '?' hmem, .inl rfl⟩
      · obtain rfl : c = '?' := by simpa using hc
        exact ⟨front, back ++ '?' :: s.sslQuery, by simp [hdatabase],
          fun hmem => by simpa using hfront '?' hmem, .inr (by simp [hdatabase])⟩
    have hpath : '?' ∉ '/' :: (rest ++ (s.portText ++ '/' :: front)) := by
      simp [hrest, hfront, s.notMem_portText]
    have hparse := s.parse_dsn ('/' :: (rest ++ (s.portText ++ '/' :: front))) query
      (by simp [hhost, htext]) hserver (.inr ⟨_, rfl⟩) hpath
    rw [agrees_of_parse hparse]
    simp only [hquery, and_false, iff_false]
    rintro ⟨hsame, -⟩
    have hdatabase := (List.cons.inj hsame).2
    obtain rfl | hmem := hlength
    · have hlength := congrArg List.length hdatabase
      simp only [List.length_append, List.length_cons] at hlength
      omega
    · exact hpath (hsame ▸ List.mem_cons_of_mem _ hmem)
  · obtain rfl : c = '?' := by simpa using hc
    have hnot : '?' ∉ path := fun hmem => by simpa using hpath '?' hmem
    have hparse := s.parse_dsn ('/' :: path)
      (query ++ (s.portText ++ '/' :: (s.database.toList ++ '?' :: s.sslQuery)))
      (by simp [hhost]) hserver (.inr ⟨_, rfl⟩) (by simpa using hnot)
    rw [agrees_of_parse hparse]
    constructor
    · rintro ⟨hsame, hvalues⟩
      obtain rfl := (List.cons.inj hsame).2
      exact ⟨hnot, query, rfl, hvalues⟩
    · rintro ⟨hdatabase, query', hrest, hvalues⟩
      have hclean : ∀ c ∈ s.database.toList, (c == '?') = false := by
        intro c hc
        exact beq_false_of_ne fun h => hdatabase (h ▸ hc)
      obtain ⟨rfl, -, rfl⟩ := cut_unique (p := (· == '?')) hpath rfl hclean rfl hrest
      exact ⟨rfl, hvalues⟩

theorem agrees_iff : s.AgreesWith s.dsnParts.text ↔ s.Contained := by
  obtain hhost | ⟨server, c, rest, hhost, hserver, hc⟩ :=
    split_first Url.endsAuthority s.host.toList
  · rw [agrees_of_host hhost, Contained, and_iff_left (.inl hhost)]
  · have hreaches : ¬ ∀ c ∈ s.host.toList, Url.endsAuthority c = false := by
      intro hinside
      have hend := hinside c (by simp [hhost])
      rw [hc] at hend
      cases hend
    simp only [Contained, hreaches, false_or]
    -- the host is cut in one way only
    have hcut : ∀ server' rest', s.host.toList = server' ++ '/' :: rest' →
        (∀ c ∈ server', Url.endsAuthority c = false) → server = server' ∧ c = '/' ∧ rest = rest' :=
      fun server' rest' hhost' hserver' =>
        cut_unique hserver hc hserver' rfl (hhost.symm.trans hhost')
    obtain rfl | rfl : c = '/' ∨ c = '?' := by simpa [Url.endsAuthority] using hc
    · rw [agrees_of_path hhost hserver]
      refine and_congr_right fun _ => ?_
      constructor
      · rintro ⟨query, rfl, hvalues⟩
        exact ⟨server, query, hhost, hserver, (s.valuesOf_hostQuery query).mp hvalues⟩
      · rintro ⟨server', query, hhost', hserver', hvalues⟩
        obtain ⟨rfl, -, rfl⟩ := hcut _ _ hhost' hserver'
        exact ⟨query, rfl, (s.valuesOf_hostQuery query).mpr hvalues⟩
    · have hparse := s.parse_dsn []
        (rest ++ (s.portText ++ '/' :: (s.database.toList ++ '?' :: s.sslQuery)))
        (by simp [hhost]) hserver (.inl rfl) List.not_mem_nil
      rw [agrees_of_parse hparse]
      refine iff_of_false (fun h => List.cons_ne_nil _ _ h.1.symm) ?_
      rintro ⟨-, server', query, hhost', hserver', -⟩
      exact absurd (hcut _ _ hhost' hserver').2.1 (by decide)

end PostgresSettings

def PostgresConfig.DsnAgrees (config : PostgresConfig builder) : Prop :=
  config.AgreesWith config.dsn

/-- For every configuration accepted for production: the URL names the database, and
has `SSL_MODE`, which is not `disable`, as its one `sslmode`, if and only if host
and database are contained in their parts of it. -/
theorem AppConfig.dsn_encrypted_iff (cfg : AppConfig builder) (hprod : cfg.env = .prod) :
    (cfg.postgres.DsnAgrees ∧ cfg.postgres.sslMode ≠ .disable) ↔ cfg.postgres.Contained := by
  rw [and_iff_left (cfg.production_safe hprod).1, PostgresConfig.DsnAgrees, cfg.postgres.dsn_eq]
  exact PostgresSettings.agrees_iff

def productionSettings (database : String) : PostgresSettings :=
  { host := "db", database, user := "app", password := "s3cret/@" }

example : (productionSettings "app").dsnParts.text =
    "postgresql+psycopg://app:s3cret%2F%40@db:5432/app?sslmode=require" := by
  decide

def productionConfig (database : String) (hdatabase : database ≠ "") :
    AppConfig (DsnBuilder.lenient _) where
  env := .prod
  postgres :=
    { toPostgresSettings := productionSettings database
      fields_valid := PostgresSettings.fieldErrors_default (by decide) hdatabase (by decide) _
      dsn := (productionSettings database).dsnParts.text
      dsn_constructible := rfl }
  production := rfl

theorem AppConfig.dsn_encrypted_app : (productionConfig "app" (by decide)).postgres.DsnAgrees ∧
    (productionConfig "app" (by decide)).postgres.sslMode ≠ .disable := by
  have hhost : "db".toList.all (fun c => !Url.endsAuthority c) = true := by decide
  have hcontained : (productionConfig "app" (by decide)).postgres.Contained :=
    ⟨by decide, .inl fun c hc => by simpa using List.all_eq_true.mp hhost c hc⟩
  exact ((productionConfig "app" (by decide)).dsn_encrypted_iff rfl).mpr hcontained

/-- A database name that brings a query of its own. -/
theorem AppConfig.dsn_plaintext : ¬ ∀ (builder : PostgresDsn) (cfg : AppConfig builder),
    cfg.env = .prod → cfg.postgres.DsnAgrees ∧ cfg.postgres.sslMode ≠ .disable := by
  intro h
  obtain ⟨hagrees, -⟩ := h _ (productionConfig "app?sslmode=disable&x=" (by decide)) rfl
  have hquestion : '?' ∈ (productionSettings "app?sslmode=disable&x=").database.toList := by decide
  have hcontained : (productionSettings "app?sslmode=disable&x=").Contained :=
    PostgresSettings.agrees_iff.mp hagrees
  exact hcontained.1 hquestion

end PolyrepoTemplate
