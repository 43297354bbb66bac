import PolyrepoTemplate.Config.PostgresConfig

namespace PolyrepoTemplate

open Text

structure RedisSettings where
  host : String
  port : ℤ := 6379
  db : ℤ := 0
  password : Option String := none
  useTls : Bool := false
  connectTimeoutSeconds : ℤ := 5
  commandTimeoutSeconds : ℤ := 5
  deriving DecidableEq, Repr

/-- The truth of an optional secret, or text: that of its length. -/
def truthy : Option String → Bool
  | some text => text ≠ ""
  | none => false

namespace RedisSettings

variable (s : RedisSettings)

def scheme : String := if s.useTls then "rediss" else "redis"

def dsnPassword : Option String :=
  let password := if truthy s.password then s.password else none
  if truthy password then password.map quote else none

def dsnParts : DsnParts where
  scheme := s.scheme
  host := s.host
  port := s.port
  path := toString s.db
  password := s.dsnPassword

def fieldErrors : List ErrorDetail :=
  minLengthOne "HOST" s.host ++ greaterThanEqual "PORT" 1 s.port ++
    lessThanEqual "PORT" 65535 s.port ++ greaterThanEqual "DB" 0 s.db ++
    greaterThanEqual "CONNECT_TIMEOUT_SECONDS" 1 s.connectTimeoutSeconds ++
    greaterThanEqual "COMMAND_TIMEOUT_SECONDS" 1 s.commandTimeoutSeconds

end RedisSettings

abbrev RedisDsn := DsnBuilder ["redis", "rediss"]

structure RedisConfig extends RedisSettings where
  fields_valid : toRedisSettings.fieldErrors = []

def RedisConfig.validate (s : RedisSettings) : Except ValidationError RedisConfig :=
  if h : s.fieldErrors = [] then .ok ⟨s, h⟩ else .error ⟨"RedisConfig", s.fieldErrors⟩

theorem RedisSettings.fieldErrors_default {host : String} (hhost : host ≠ "")
    (password : Option String) (useTls : Bool) : fieldErrors { host, password, useTls } = [] := by
  simp [fieldErrors, minLengthOne, greaterThanEqual, lessThanEqual, hhost]

theorem le_of_greaterThanEqual {loc : String} {bound value : ℤ}
    (h : greaterThanEqual loc bound value = []) : bound ≤ value := by
  by_contra hlt
  rw [greaterThanEqual, if_neg hlt] at h
  cases h

theorem le_of_lessThanEqual {loc : String} {bound value : ℤ}
    (h : lessThanEqual loc bound value = []) : value ≤ bound := by
  by_contra hlt
  rw [lessThanEqual, if_neg hlt] at h
  cases h

theorem RedisConfig.bounds (config : RedisConfig) :
    config.host ≠ "" ∧ 1 ≤ config.port ∧ config.port ≤ 65535 ∧ 0 ≤ config.db := by
  have hvalid := config.fields_valid
  simp only [RedisSettings.fieldErrors, List.append_eq_nil_iff] at hvalid
  obtain ⟨⟨⟨⟨⟨hhost, hport⟩, hport'⟩, hdb⟩, -⟩, -⟩ := hvalid
  exact ⟨minLengthOne_eq_nil.mp hhost, le_of_greaterThanEqual hport, le_of_lessThanEqual hport',
    le_of_greaterThanEqual hdb⟩

namespace RedisSettings

variable (s : RedisSettings)

theorem toList_dsn : s.dsnParts.text.toList = s.scheme.toList ++ ':' :: '/' :: '/' ::
    (s.dsnParts.authority ++ '/' :: (toString s.db).toList) := by
  have hquery : (s.dsnParts.query.elim "" ("?" ++ ·)).toList = [] := rfl
  rw [DsnParts.toList_text, hquery, List.append_nil]
  rfl

/-- The settings, read from a URL as the client does. -/
structure CarriedBy (url : Url) : Prop where
  tls : url.scheme = s.scheme.toList
  host : (Authority.parse url.authority).host = s.host.toList
  port : ((Authority.parse url.authority).port.bind decimal).map Int.ofNat = some s.port
  db : (decimal (url.path.drop 1)).map Int.ofNat = some s.db
  password : (Authority.parse url.authority).password.map Percent.unquote =
    s.password.map String.toList

variable {s}

theorem scheme_mem (s : RedisSettings) : s.scheme ∈ ["redis", "rediss"] := by
  unfold scheme
  cases s.useTls with
  | false => exact List.mem_cons_self
  | true => exact List.mem_cons_of_mem _ List.mem_cons_self

theorem dsnPassword_cases (s : RedisSettings) :
    ((s.password = none ∨ s.password = some "") ∧ s.dsnPassword = none) ∨
      ∃ password, password ≠ "" ∧ s.password = some password ∧
        s.dsnPassword = some (quote password) := by
  unfold dsnPassword
  cases s.password with
  | none => exact .inl ⟨.inl rfl, rfl⟩
  | some password =>
    by_cases hempty : password = ""
    · left
      rw [hempty]
      exact ⟨.inr rfl, rfl⟩
    · right
      have htruthy : truthy (some password) = true := decide_eq_true hempty
      refine ⟨password, hempty, rfl, ?_⟩
      simp only [htruthy, if_true, Option.map_some]

theorem bare_dsnPassword (s : RedisSettings) : Bare (s.dsnPassword.getD "").toList := by
  obtain ⟨-, hnone⟩ | ⟨password, -, -, hsome⟩ := s.dsnPassword_cases
  · rw [hnone]
    exact List.forall_mem_nil _
  · rw [hsome]
    exact bare_toList_quote password

theorem authority_inside (hhost : PlainHost s.host.toList) : Inside s.dsnParts.authority :=
  DsnParts.authority_inside (List.forall_mem_nil _) s.bare_dsnPassword.inside hhost

theorem parse_authority (hhost : PlainHost s.host.toList) : ∃ username password,
    Authority.parse s.dsnParts.authority =
      ⟨username, password, s.host.toList, some (toString s.port).toList⟩ ∧
    (password.map Percent.unquote = s.password.map String.toList ↔ s.password ≠ some "") := by
  obtain ⟨username, hparsed, -⟩ :=
    DsnParts.parse_authority s.dsnParts hhost List.not_mem_nil
  have hwritten : s.dsnParts.password = s.dsnPassword := rfl
  refine ⟨username, _, hparsed, ?_⟩
  rw [hwritten]
  obtain ⟨hpassword, hnone⟩ | ⟨password, hne, hpassword, hsome⟩ := s.dsnPassword_cases
  · rw [hnone, Option.getD_none, if_pos rfl]
    obtain hpassword | hpassword := hpassword
    · simp [hpassword]
    · simp [hpassword]
  · rw [hsome, Option.getD_some, if_neg (mt quote_eq_empty_iff.mp hne), hpassword, Option.map_some,
      unquote_toList_quote]
    exact iff_of_true rfl fun h => hne (Option.some.inj h)

end RedisSettings

theorem RedisConfig.dsn_constructible (builder : RedisDsn) (config : RedisConfig)
    (hhost : PlainHost config.host.toList) :
    builder.build config.dsnParts = .ok config.dsnParts.text := by
  obtain ⟨hne, hport, hport', -⟩ := config.bounds
  obtain ⟨url, hurl⟩ := builder.build_plain config.dsnParts config.scheme_mem hne hhost
    hport hport' (List.forall_mem_nil _) config.bare_dsnPassword (bare_toString config.db) rfl
  rw [hurl, builder.build_text hurl]

/-- For every accepted configuration with a plain host: the URL gives back TLS, host, port
and database number, and the password unless it is the empty one. -/
theorem RedisConfig.dsn_carries_iff (builder : RedisDsn) (config : RedisConfig)
    (hhost : PlainHost config.host.toList) {parser : List Char → Option Url}
    (hparser : parser ∈ [Url.parse, Url.parseReference]) :
    (∃ dsn url, builder.build config.dsnParts = .ok dsn ∧ parser dsn.toList = some url ∧
      config.CarriedBy url) ↔ config.password ≠ some "" := by
  obtain ⟨-, hport, -, hdb⟩ := config.bounds
  obtain ⟨port, hport⟩ := Int.eq_ofNat_of_zero_le (show 0 ≤ config.port by omega)
  obtain ⟨db, hdb⟩ := Int.eq_ofNat_of_zero_le hdb
  obtain ⟨path, query, hpath, hparse⟩ := Url.parse_inside hparser (toString config.db).toList
  obtain ⟨username, password, hauthority, hpassword⟩ := RedisSettings.parse_authority hhost
  have hbuild := config.dsn_constructible builder hhost
  have hscheme : ':' ∉ config.scheme.toList ∧ '#' ∉ config.scheme.toList := by
    unfold RedisSettings.scheme
    cases config.useTls <;> decide
  have hdsn : parser config.dsnParts.text.toList =
      some ⟨config.scheme.toList, config.dsnParts.authority, path, query⟩ := by
    rw [RedisSettings.toList_dsn]
    exact hparse _ _ (RedisSettings.authority_inside hhost) hscheme.1 hscheme.2
  have hdigits : path.drop 1 = Nat.toDigits 10 db := by
    rw [hpath ((bare_toString _).notMem (by decide) (by decide))
      ((bare_toString _).notMem (by decide) (by decide)), hdb]
    exact toString_ofNat_toList db
  rw [← hpassword]
  constructor
  · rintro ⟨dsn, url, hdsn', hurl, hcarried⟩
    obtain rfl := Except.ok.inj (hbuild.symm.trans hdsn')
    obtain rfl := Option.some.inj (hdsn.symm.trans hurl)
    have hparsed := hcarried.password
    dsimp only at hparsed
    rwa [hauthority] at hparsed
  · intro h
    refine ⟨_, _, hbuild, hdsn, rfl, ?_, ?_, ?_, ?_⟩
    · dsimp only
      rw [hauthority]
    · dsimp only
      rw [hauthority, hport, toString_ofNat_toList, Option.bind_some, decimal_toDigits]
      rfl
    · dsimp only
      rw [hdigits, decimal_toDigits, hdb]
      rfl
    · dsimp only
      rwa [hauthority]

def localRedis (password : Option String) : RedisConfig :=
  ⟨{ host := "127.0.0.1", password, useTls := true },
    RedisSettings.fieldErrors_default (by decide) password true⟩

theorem plainHost_localRedis (password : Option String) :
    PlainHost (localRedis password).host.toList := by
  show PlainHost "127.0.0.1".toList
  decide

theorem RedisConfig.dsn_carries_delimiters : ∃ dsn url,
    (DsnBuilder.lenient _ : RedisDsn).build (localRedis (some "p@:/ #é")).dsnParts = .ok dsn ∧
      Url.parse dsn.toList = some url ∧ (localRedis (some "p@:/ #é")).CarriedBy url :=
  ((localRedis (some "p@:/ #é")).dsn_carries_iff (DsnBuilder.lenient _) (plainHost_localRedis _)
    List.mem_cons_self).mpr fun h => absurd (Option.some.inj h) (by decide)

/-- The empty password. -/
theorem RedisConfig.dsn_drops_empty : ¬ ∀ (builder : RedisDsn) (config : RedisConfig),
    PlainHost config.host.toList → ∃ dsn url, builder.build config.dsnParts = .ok dsn ∧
      Url.parse dsn.toList = some url ∧ config.CarriedBy url := by
  intro h
  obtain ⟨dsn, url, hbuild, hurl, hcarried⟩ :=
    h (DsnBuilder.lenient _) (localRedis (some "")) (plainHost_localRedis _)
  obtain ⟨dsn', url', hbuild', hurl', hnone⟩ :=
    h (DsnBuilder.lenient _) (localRedis none) (plainHost_localRedis _)
  have hparts : (localRedis (some "")).dsnParts = (localRedis none).dsnParts := rfl
  -- the two URLs are one, and one password is absent
  rw [hparts, hbuild'] at hbuild
  obtain rfl := Except.ok.inj hbuild
  obtain rfl := Option.some.inj (hurl.symm.trans hurl')
  have hpassword := hcarried.password.symm.trans hnone.password
  cases hpassword

end PolyrepoTemplate
