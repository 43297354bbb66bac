import PolyrepoTemplate.Service.Sequential

namespace PolyrepoTemplate

open Async

theorem FlagJson.dumpJson_injective (json : FlagJson) : Function.Injective json.dumpJson := by
  intro flag flag' h
  have hread := json.validateJson_dumpJson flag
  rw [h, json.validateJson_dumpJson] at hread
  exact (Except.ok.inj hread).symm

theorem Call.cacheKey_congr {c c' : Call} (h : c'.key = c.key) : c'.cacheKey = c.cacheKey := by
  have hentry : ∀ c : Call, c.cacheKey = encodeKey c.key := fun _ => rfl
  rw [hentry, hentry, h]

namespace FeatureFlagService

variable (svc : FeatureFlagService) (zone : TimeZone) (i : ℕ) (s : Stores)

theorem getFlag_run_stores (c : Call) :
    ((svc.getFlag c.name.val c.user).run (Stores.handler zone i) s).2.table = s.table ∧
    (((svc.getFlag c.name.val c.user).run (Stores.handler zone i) s).2.redis = s.redis ∨
      ∃ row flag, s.table.sessionGet zone c.key = some row ∧ rowToFlag row = .ok flag ∧
        ((svc.getFlag c.name.val c.user).run (Stores.handler zone i) s).2.redis =
          (s.cached svc c flag).redis) := by
  cases hget : s.redis.getString s.clock (cacheKey c.user.tenantId c.name.val) with
  | some text =>
    rw [svc.getFlag_run_hit zone i s hget]
    exact ⟨rfl, .inl rfl⟩
  | none =>
    rw [svc.getFlag_run_miss zone i s hget]
    cases hrow : s.table.sessionGet zone c.key with
    | none =>
      rw [svc.reload_run_missing zone i (missed c.name.val s) c
        (Table.sessionGet_eq_none.mp hrow)]
      exact ⟨rfl, .inl rfl⟩
    | some row =>
      cases hflag : rowToFlag row with
      | error e =>
        rw [svc.reload_run_invalid zone i (missed c.name.val s) c hrow hflag]
        exact ⟨rfl, .inl rfl⟩
      | ok flag =>
        rw [svc.reload_run_found zone i (missed c.name.val s) c hrow hflag]
        exact ⟨rfl, .inr ⟨row, flag, rfl, hflag, rfl⟩⟩

theorem setFlag_run_stores (c : Call) (enabled : Bool) (now : Datetime) :
    ((svc.setFlag c.name.val enabled c.user now).run (Stores.handler zone i) s).2.table =
      stored c enabled now s.table ∧
    ((svc.setFlag c.name.val enabled c.user now).run (Stores.handler zone i) s).2.redis =
      (s.cached svc c (c.flag enabled now)).redis := by
  rw [svc.setFlag_run zone i s c enabled now]
  simp only [Stores.log_table, Stores.log_redis, Stores.cached_table, Stores.committed_table,
    true_and]
  rfl

theorem program_run_frame {c : Call} {key : FlagKey} (hkey : key ≠ c.key) :
    ((c.program svc).run (Stores.handler zone i) s).2.table key = s.table key ∧
    ((c.program svc).run (Stores.handler zone i) s).2.redis (cacheKey key.1 key.2) =
      s.redis (cacheKey key.1 key.2) := by
  have hcache : cacheKey key.1 key.2 ≠ c.cacheKey := fun h => hkey (cacheKey_injective h)
  cases hm : c.method with
  | get =>
    simp only [Call.program, hm]
    obtain ⟨htable, hredis | ⟨row, flag, -, -, hredis⟩⟩ := svc.getFlag_run_stores zone i s c
    · rw [htable, hredis]
      exact ⟨rfl, rfl⟩
    · rw [htable, hredis, Stores.cached_redis_of_ne _ _ _ _ hcache]
      exact ⟨rfl, rfl⟩
  | set enabled now =>
    simp only [Call.program, hm]
    obtain ⟨htable, hredis⟩ := svc.setFlag_run_stores zone i s c enabled now
    rw [htable, hredis, Stores.cached_redis_of_ne _ _ _ _ hcache]
    exact ⟨Function.update_of_ne hkey _ _, rfl⟩

/-- The row is the one `c` has written at `instant`, and an entry for it, if there is
one, is the text of the flag `c` returned. -/
structure Written (c : Call) (enabled : Bool) (instant : ℤ) (s : Stores) : Prop where
  row : s.table c.key = some (c.columns enabled ⟨instant, 0⟩)
  entry : ∀ e, s.redis c.cacheKey = some e →
    e.value = svc.json.dumpJson (c.flag enabled ⟨instant, 0⟩)

def Leaves (key : FlagKey) : Happening → Prop
  | .call z c => z = zone ∧ (c.key = key → c.method = .get)
  | .pass _ => True
  | .lose _ => True

theorem written_set {c : Call} {enabled : Bool} {instant : ℤ}
    (hm : c.method = .set enabled ⟨instant, 0⟩) :
    ((c.program svc).run (Stores.handler zone i) s).1 = .ok (c.flag enabled ⟨instant, 0⟩) ∧
    svc.Written c enabled instant ((c.program svc).run (Stores.handler zone i) s).2 := by
  simp only [Call.program, hm]
  obtain ⟨htable, hredis⟩ := svc.setFlag_run_stores zone i s c enabled ⟨instant, 0⟩
  refine ⟨?_, ⟨?_, fun e he => ?_⟩⟩
  · rw [svc.setFlag_run zone i s c enabled ⟨instant, 0⟩]
  · rw [htable]
    exact Function.update_self ..
  · rw [hredis, Stores.cached_redis_self] at he
    cases he
    rfl

section
variable {svc s} {c c' : Call} {enabled : Bool} {instant : ℤ}

theorem Written.loaded (h : svc.Written c enabled instant s) (hkey : c'.key = c.key) :
    ∃ row, s.table.sessionGet zone c'.key = some row ∧
      rowToFlag row = .ok (c.flag enabled ⟨instant, zone instant⟩) := by
  refine ⟨⟨c.key.1, c.key.2, enabled, ⟨instant, zone instant⟩, c.user.userId⟩, ?_, ?_⟩
  · rw [hkey, Table.sessionGet, h.row]
    rfl
  · exact FeatureFlag.validate_ok c.name.minLength c.user.userId_minLength

theorem Written.get (h : svc.Written c enabled instant s) (hkey : c'.key = c.key)
    (hm : c'.method = .get) :
    ((c'.program svc).run (Stores.handler zone i) s).1 =
      match s.redis.getString s.clock c.cacheKey with
      | some _ => .ok (c.flag enabled ⟨instant, 0⟩)
      | none => .ok (c.flag enabled ⟨instant, zone instant⟩) := by
  have hcache : cacheKey c'.user.tenantId c'.name.val = c.cacheKey := Call.cacheKey_congr hkey
  simp only [Call.program, hm]
  cases hget : s.redis.getString s.clock c.cacheKey with
  | some text =>
    obtain ⟨e, he, -, rfl⟩ := Redis.getString_eq_some.mp hget
    rw [svc.getFlag_run_hit zone i s (hcache ▸ hget), h.entry e he,
      svc.json.validateJson_dumpJson]
    rfl
  | none =>
    obtain ⟨row, hrow, hflag⟩ := h.loaded zone hkey
    rw [svc.getFlag_run_miss zone i s (hcache ▸ hget),
      svc.reload_run_found zone i (missed c'.name.val s) c' hrow hflag]

variable {zone i}

/-- In a session that gives the instant in UTC, a call that does not set the flag
keeps its row and the text of its entry. -/
theorem Written.call (h : svc.Written c enabled instant s) (hzone : zone instant = 0)
    (hquiet : c'.key = c.key → c'.method = .get) :
    svc.Written c enabled instant ((c'.program svc).run (Stores.handler zone i) s).2 := by
  by_cases hkey : c'.key = c.key
  · have hm := hquiet hkey
    obtain ⟨htable, hredis⟩ := svc.getFlag_run_stores zone i s c'
    have hcache : c'.cacheKey = c.cacheKey := Call.cacheKey_congr hkey
    simp only [Call.program, hm]
    refine ⟨htable ▸ h.row, fun e he => ?_⟩
    obtain hsame | ⟨row, flag, hrow, hflag, hfill⟩ := hredis
    · exact h.entry e (hsame ▸ he)
    · -- the entry filled from the row has the text it had
      obtain ⟨row', hrow', hflag'⟩ := h.loaded zone hkey
      cases hrow.symm.trans hrow'
      cases hflag.symm.trans hflag'
      rw [hfill, ← hcache, Stores.cached_redis_self, hzone] at he
      cases he
      rfl
  · obtain ⟨hrow, hentry⟩ := svc.program_run_frame zone i s (Ne.symm hkey)
    exact ⟨hrow.trans h.row, fun e he => h.entry e (hentry.symm.trans he)⟩

theorem Written.answers (hzone : zone instant = 0) {hs : List Happening}
    (h : svc.Written c enabled instant s) (hquiet : ∀ x ∈ hs, Leaves zone c.key x) :
    svc.Written c enabled instant (svc.answers hs s).2 := by
  induction hs generalizing s with
  | nil => exact h
  | cons x hs ih =>
    have hrest : ∀ y ∈ hs, Leaves zone c.key y := fun y hy => hquiet y (List.mem_cons_of_mem x hy)
    cases x with
    | call z c' =>
      obtain ⟨rfl, hget⟩ : z = zone ∧ (c'.key = c.key → c'.method = .get) :=
        hquiet (.call z c') List.mem_cons_self
      exact ih (h.call hzone hget) hrest
    | pass ms => exact ih ⟨h.row, h.entry⟩ hrest
    | lose gone =>
      exact ih ⟨h.row, fun e he => h.entry e (Redis.evict_eq_some.mp he).2⟩ hrest

end

/-- `set_flag` returns a flag in UTC, and every later `get_flag` for the pair a flag
in UTC with the same text, whatever else has happened since that sets no flag of
that pair. -/
def OneText (c : Call) : Prop :=
  ∃ flag, ((c.program svc).run (Stores.handler zone i) s).1 = .ok flag ∧
    flag.updatedAt.utcoffset = 0 ∧
    ∀ hs : List Happening, (∀ x ∈ hs, Leaves zone c.key x) →
    ∀ c' : Call, c'.key = c.key → c'.method = .get → ∃ later,
      ((c'.program svc).run (Stores.handler zone i)
        (svc.answers hs ((c.program svc).run (Stores.handler zone i) s).2).2).1 = .ok later ∧
      svc.json.dumpJson later = svc.json.dumpJson flag ∧ later.updatedAt.utcoffset = 0

section
variable {svc zone i s} {c : Call} {enabled : Bool} {instant : ℤ}

theorem oneText_of_utc (hm : c.method = .set enabled ⟨instant, 0⟩) (hzone : zone instant = 0) :
    svc.OneText zone i s c := by
  obtain ⟨hflag, hwritten⟩ := svc.written_set zone i s hm
  refine ⟨c.flag enabled ⟨instant, 0⟩, hflag, rfl, fun hs hquiet c' hkey hget => ?_⟩
  have hlater := (hwritten.answers hzone hquiet).get zone i hkey hget
  refine ⟨c.flag enabled ⟨instant, 0⟩, ?_, rfl, rfl⟩
  rw [hlater, hzone]
  split <;> rfl

theorem utc_of_oneText (hm : c.method = .set enabled ⟨instant, 0⟩)
    (h : svc.OneText zone i s c) : zone instant = 0 := by
  obtain ⟨flag, hflag, -, hlater⟩ := h
  obtain ⟨hset, hwritten⟩ := svc.written_set zone i s hm
  have hlost : svc.Written c enabled instant (svc.answers [.lose fun _ => true]
      ((c.program svc).run (Stores.handler zone i) s).2).2 :=
    ⟨hwritten.row, fun e he => nomatch he⟩
  obtain ⟨later, hanswer, htext, -⟩ := hlater [.lose fun _ => true] (by simp [Leaves])
    ⟨c.name, c.user, .get⟩ rfl rfl
  have hmiss := hlost.get zone i (rfl : (⟨c.name, c.user, .get⟩ : Call).key = c.key) rfl
  cases hmiss.symm.trans hanswer
  cases hset.symm.trans hflag
  -- equal texts are texts of one flag
  have hequal := svc.json.dumpJson_injective htext
  exact congrArg (fun flag => flag.updatedAt.utcoffset) hequal

end

/-- For every flag, instant and stores: the three paths give one text, in UTC, if and
only if the session's `TimeZone` has offset 0 at that instant. -/
theorem oneText_iff_utc (svc : FeatureFlagService) (zone : TimeZone) (i : ℕ) (s : Stores)
    (name : FlagName) (user : UserDetails) (enabled : Bool) (instant : ℤ) :
    svc.OneText zone i s ⟨name, user, .set enabled ⟨instant, 0⟩⟩ ↔ zone instant = 0 :=
  ⟨utc_of_oneText rfl, oneText_of_utc rfl⟩

/-- A session two hours ahead of UTC. -/
theorem oneText_fails : ¬ ∀ (svc : FeatureFlagService) (zone : TimeZone) (i : ℕ) (s : Stores)
    (name : FlagName) (user : UserDetails) (enabled : Bool) (instant : ℤ),
    svc.OneText zone i s ⟨name, user, .set enabled ⟨instant, 0⟩⟩ := by
  intro h
  have hone := h ⟨{}, pydanticJson⟩ (fun _ => 7200) 0 ⟨0, fun _ => none, fun _ => none, [], []⟩
    ⟨"dark-mode", by decide⟩ ⟨"acme", "ann", by decide, by decide⟩ true 1768478400000000
  exact absurd (utc_of_oneText rfl hone) (by decide)

end FeatureFlagService

end PolyrepoTemplate
