import PolyrepoTemplate.Config.Dsn

namespace PolyrepoTemplate

open Text

inductive SslMode where
  | disable
  | require
  | verifyFull
  deriving DecidableEq, Repr

def SslMode.value : SslMode → String
  | .disable => "disable"
  | .require => "require"
  | .verifyFull => "verify-full"

structure PostgresSettings where
  host : String
  port : ℤ := 5432
  database : String
  user : String
  password : String
  sslMode : SslMode := .require
  connectTimeoutSeconds : ℤ := 5
  statementTimeoutMs : ℤ := 5000
  poolTimeoutSeconds : ℤ := 30
  deriving DecidableEq, Repr

/-- The check `ge=bound` makes on an integer field. -/
def greaterThanEqual (loc : String) (bound value : ℤ) : List ErrorDetail :=
  if bound ≤ value then []
  else [⟨loc, "greater_than_equal", "Input should be greater than or equal to " ++ toString bound⟩]

def lessThanEqual (loc : String) (bound value : ℤ) : List ErrorDetail :=
  if value ≤ bound then []
  else [⟨loc, "less_than_equal", "Input should be less than or equal to " ++ toString bound⟩]

def PostgresSettings.fieldErrors (s : PostgresSettings) : List ErrorDetail :=
  minLengthOne "HOST" s.host ++ greaterThanEqual "PORT" 1 s.port ++
    lessThanEqual "PORT" 65535 s.port ++ minLengthOne "DATABASE" s.database ++
    minLengthOne "USER" s.user ++
    greaterThanEqual "CONNECT_TIMEOUT_SECONDS" 1 s.connectTimeoutSeconds ++
    greaterThanEqual "STATEMENT_TIMEOUT_MS" 1 s.statementTimeoutMs ++
    greaterThanEqual "POOL_TIMEOUT_SECONDS" 1 s.poolTimeoutSeconds

/-- What the property `DSN` builds the URL of. -/
def PostgresSettings.dsnParts (s : PostgresSettings) : DsnParts where
  scheme := "postgresql+psycopg"
  host := s.host
  port := s.port
  path := s.database
  username := some (quote s.user)
  password := some (quote s.password)
  query := some ("sslmode=" ++ s.sslMode.value)

abbrev PostgresDsn := DsnBuilder ["postgresql+psycopg"]

/-- Settings that have passed the model, and `str(config.DSN)`. -/
structure PostgresConfig (builder : PostgresDsn) extends PostgresSettings where
  fields_valid : toPostgresSettings.fieldErrors = []
  dsn : String
  dsn_constructible : builder.build toPostgresSettings.dsnParts = .ok dsn

/-- `_validate_dsn_is_constructible` runs once every field is valid. -/
def PostgresConfig.validate (builder : PostgresDsn) (s : PostgresSettings) :
    Except ValidationError (PostgresConfig builder) :=
  if h : s.fieldErrors = [] then
    match hdsn : builder.build s.dsnParts with
    | .ok dsn => .ok ⟨s, h, dsn, hdsn⟩
    -- pydantic takes over the errors of a validation that fails in a validator
    | .error errors => .error ⟨"PostgresConfig", errors⟩
  else .error ⟨"PostgresConfig", s.fieldErrors⟩

theorem PostgresSettings.fieldErrors_default {host database user : String} (hhost : host ≠ "")
    (hdatabase : database ≠ "") (huser : user ≠ "") (password : String) :
    fieldErrors { host, database, user, password } = [] := by
  simp [fieldErrors, minLengthOne, greaterThanEqual, lessThanEqual, hhost, hdatabase, huser]

namespace PostgresSettings

variable (s : PostgresSettings)

def withCredentials (user password : String) : PostgresSettings := { s with user, password }

def portText : List Char := ':' :: (toString s.port).toList

def sslQuery : List Char := "sslmode=".toList ++ s.sslMode.value.toList

theorem toList_query : (s.dsnParts.query.elim "" ("?" ++ ·)).toList = '?' :: s.sslQuery := by
  have hquestion : "?".toList = ['?'] := rfl
  unfold sslQuery dsnParts
  -- what the constant text says does not matter here
  generalize "sslmode=" = name
  simp only [Option.elim_some, String.toList_append, hquestion, List.singleton_append]

theorem toList_dsn : s.dsnParts.text.toList = "postgresql+psycopg".toList ++ ':' :: '/' :: '/' ::
    (s.dsnParts.authority ++ '/' :: (s.database.toList ++ '?' :: s.sslQuery)) := by
  have hscheme : s.dsnParts.scheme = "postgresql+psycopg" := rfl
  have hpath : s.dsnParts.path = s.database := rfl
  rw [DsnParts.toList_text, toList_query, hscheme, hpath]

theorem userinfo_inside : Inside s.dsnParts.userinfo.toList :=
  DsnParts.userinfo_inside (bare_toList_quote s.user).inside (bare_toList_quote s.password).inside

theorem portText_inside : Inside s.portText := (bare_toString s.port).inside.cons (by decide)

theorem authority_inside {s : PostgresSettings} (hhost : PlainHost s.host.toList) :
    Inside s.dsnParts.authority :=
  DsnParts.authority_inside (bare_toList_quote s.user).inside (bare_toList_quote s.password).inside
    hhost

theorem parse_authority {s : PostgresSettings} (hhost : PlainHost s.host.toList) :
    ∃ username, Authority.parse s.dsnParts.authority =
      ⟨username, if s.password = "" then none else some (quote s.password).toList, s.host.toList,
        some (toString s.port).toList⟩ ∧
      (s.user ≠ "" → username = some (quote s.user).toList) := by
  obtain ⟨username, hparsed, husername⟩ := DsnParts.parse_authority s.dsnParts hhost
    ((bare_toList_quote s.user).notMem (by decide) (by decide))
  have huser : s.dsnParts.username.getD "" = quote s.user := rfl
  have hpassword : s.dsnParts.password.getD "" = quote s.password := rfl
  simp only [huser, hpassword, ne_eq, quote_eq_empty_iff] at hparsed husername
  exact ⟨username, hparsed, husername⟩

end PostgresSettings

namespace PostgresConfig

variable {builder : PostgresDsn}

theorem dsn_eq (config : PostgresConfig builder) : config.dsn = config.dsnParts.text :=
  builder.build_text config.dsn_constructible

theorem user_ne_empty (config : PostgresConfig builder) : config.user ≠ "" := by
  have hvalid := config.fields_valid
  simp only [PostgresSettings.fieldErrors, List.append_eq_nil_iff, minLengthOne_eq_nil] at hvalid
  exact hvalid.1.1.1.2

/-- The userinfo decodes to user and password, and whatever these are, host, port, path and
query stay the same. -/
structure CredentialsInside (config : PostgresConfig builder) (parser : List Char → Option Url)
    (url : Url) : Prop where
  parsed : parser config.dsn.toList = some url
  username : (Authority.parse url.authority).username.map Percent.unquote = some config.user.toList
  password :
    (Authority.parse url.authority).password.map Percent.unquote = some config.password.toList
  host : (Authority.parse url.authority).host = config.host.toList
  independent : ∀ user password dsn : String,
    builder.build (config.withCredentials user password).dsnParts = .ok dsn →
    ∃ url', parser dsn.toList = some url' ∧
      (Authority.parse url'.authority).host = (Authority.parse url.authority).host ∧
      (Authority.parse url'.authority).port = (Authority.parse url.authority).port ∧
      url'.path = url.path ∧ url'.query = url.query

/-- For every accepted configuration with a plain host, and with a parser that knows fragments
or one that does not. -/
theorem credentials_contained_iff (config : PostgresConfig builder)
    (hhost : PlainHost config.host.toList) {parser : List Char → Option Url}
    (hparser : parser ∈ [Url.parse, Url.parseReference]) :
    (∃ url, config.CredentialsInside parser url) ↔ config.password ≠ "" := by
  obtain ⟨path, query, -, hparse⟩ := Url.parse_inside hparser
    (config.database.toList ++ '?' :: config.sslQuery)
  have hdsn (s : PostgresSettings) (hs : PlainHost s.host.toList)
      (hrest : s.database.toList ++ '?' :: s.sslQuery =
        config.database.toList ++ '?' :: config.sslQuery) :
      parser s.dsnParts.text.toList =
        some ⟨"postgresql+psycopg".toList, s.dsnParts.authority, path, query⟩ := by
    rw [s.toList_dsn, hrest]
    exact hparse _ _ (PostgresSettings.authority_inside hs) (by decide) (by decide)
  have hparsed := hdsn config.toPostgresSettings hhost rfl
  rw [← config.dsn_eq] at hparsed
  obtain ⟨username, hauthority, husername⟩ := PostgresSettings.parse_authority hhost
  constructor
  · -- an empty password is no part of the userinfo
    rintro ⟨url, hinside⟩ hempty
    obtain rfl := Option.some.inj (hparsed.symm.trans hinside.parsed)
    have hpassword := hinside.password
    dsimp only at hpassword
    rw [hauthority, if_pos hempty] at hpassword
    cases hpassword
  · intro hne
    refine ⟨_, hparsed, ?_, ?_, ?_, fun user password dsn hbuild => ?_⟩
    · dsimp only
      rw [hauthority, husername config.user_ne_empty, Option.map_some, unquote_toList_quote]
    · dsimp only
      rw [hauthority, if_neg hne, Option.map_some, unquote_toList_quote]
    · dsimp only
      rw [hauthority]
    · have hother : PlainHost (config.withCredentials user password).host.toList := hhost
      obtain ⟨username', hauthority', -⟩ := PostgresSettings.parse_authority hother
      rw [builder.build_text hbuild]
      refine ⟨_, hdsn _ hother rfl, ?_⟩
      dsimp only
      rw [hauthority, hauthority']
      exact ⟨rfl, rfl, rfl, rfl⟩

def internalSettings (user password : String) : PostgresSettings :=
  { host := "db-1.internal", database := "app", user, password }

theorem plainHost_internal (user password : String) :
    PlainHost (internalSettings user password).host.toList := by
  show PlainHost "db-1.internal".toList
  decide

def internalConfig (user password : String) (huser : user ≠ "") :
    PostgresConfig (DsnBuilder.lenient _) where
  toPostgresSettings := internalSettings user password
  fields_valid := PostgresSettings.fieldErrors_default (by decide) (by decide) huser password
  dsn := (internalSettings user password).dsnParts.text
  dsn_constructible := rfl

/-- Credentials made of delimiters. -/
theorem credentials_contained_delimiters :
    ∃ url, (internalConfig "a:b@c" "/?#% é@" (by decide)).CredentialsInside Url.parse url :=
  ((internalConfig "a:b@c" "/?#% é@" (by decide)).credentials_contained_iff
    (plainHost_internal _ _) List.mem_cons_self).mpr (by decide)

theorem credentials_contained_fails : ¬ ∀ (builder : PostgresDsn) (config : PostgresConfig builder),
    PlainHost config.host.toList → ∃ url, config.CredentialsInside Url.parse url := by
  intro h
  obtain ⟨url, hinside⟩ := h _ (internalConfig "app" "" (by decide)) (plainHost_internal _ _)
  have hdsn : (internalConfig "app" "" (by decide)).dsn =
      "postgresql+psycopg://app@db-1.internal:5432/app?sslmode=require" := by decide
  have hurl : Url.parse
      "postgresql+psycopg://app@db-1.internal:5432/app?sslmode=require".toList =
        some ⟨"postgresql+psycopg".toList, "app@db-1.internal:5432".toList, "/app".toList,
          "sslmode=require".toList⟩ := by
    decide
  have hparsed := hinside.parsed
  rw [hdsn, hurl] at hparsed
  obtain rfl := Option.some.inj hparsed
  have hnone : (Authority.parse "app@db-1.internal:5432".toList).password = none := by decide
  have hpassword := hinside.password
  dsimp only at hpassword
  rw [hnone] at hpassword
  cases hpassword

end PostgresConfig

end PolyrepoTemplate
