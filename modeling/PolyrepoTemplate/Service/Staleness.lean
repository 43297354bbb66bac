import PolyrepoTemplate.Service.Coherence

namespace PolyrepoTemplate

open Async

namespace Deployment

variable {D : Deployment} {key : FlagKey}

def ttl (D : Deployment) : ℤ := 1000 * D.svc.config.cacheTtlSeconds

/-- No entry of the pair outlives the TTL counted from now. -/
def ShortLived (D : Deployment) (key : FlagKey) (s : Stores) : Prop :=
  ∀ e, s.redis (cacheKey key.1 key.2) = some e → e.expiresAt ≤ s.clock + D.ttl

theorem step_shortLived {s s' : System} {l : SystemLabel} (hI : D.ShortLived key s.shared)
    (h : D.step s l = some s') : D.ShortLived key s'.shared := by
  cases l with
  | env e =>
    rw [step_env h]
    intro x hx
    have hold := hI x (e.redis_some hx)
    have hclock := e.clock_le s.shared
    simp only
    omega
  | task i a =>
    obtain ⟨ph, sh, hmove, rfl⟩ := step_task h
    intro x hx
    simp only at hx ⊢
    rw [hmove.clock_eq]
    obtain hredis | ⟨flag, -, hredis⟩ := hmove.redis_cases
    · exact hI x (hredis ▸ hx)
    · by_cases hk : cacheKey key.1 key.2 = (D.calls i).cacheKey
      · rw [hredis, hk, Stores.cached_redis_self] at hx
        obtain rfl := Option.some.inj hx
        simp [ttl]
      · rw [hredis, Stores.cached_redis_of_ne _ _ _ _ hk] at hx
        exact hI x hx

theorem step_validRow {s s' : System} {l : SystemLabel} (hs : D.Sound s)
    (hI : ValidRow (s.shared.table key)) (h : D.step s l = some s') :
    ValidRow (s'.shared.table key) := by
  obtain ⟨htable, -⟩ | ⟨i, enabled, now, row, new, o, -, -, -, -, -, -, htable, hnew⟩ :=
    step_pair_cases key hs h
  · exact htable ▸ hI
  · have huser := (D.calls i).user.userId_minLength
    intro col hcol
    obtain rfl := Option.some.inj (htable.symm.trans hcol)
    obtain ⟨-, -, rfl⟩ | ⟨r, old, -, hold, rfl⟩ := hnew
    · exact huser
    · simp only [Columns.patch]
      split
      · exact hI old hold
      · exact huser

theorem step_commitsOf (key : FlagKey) {s s' : System} {l : SystemLabel}
    (h : D.step s l = some s') : D.commitsOf key s.shared <:+ D.commitsOf key s'.shared := by
  cases l with
  | env e =>
    rw [step_env h]
    exact commitsOf_congr D key (e.step_commits s.shared) ▸ List.suffix_rfl
  | task i a =>
    obtain ⟨ph, sh, hmove, rfl⟩ := step_task h
    obtain hcommits | hcommits := hmove.commits_cases
    · exact commitsOf_congr D key hcommits ▸ List.suffix_rfl
    · rw [commitsOf_cons D key hcommits]
      split
      · exact List.suffix_cons _ _
      · exact List.suffix_rfl

theorem run_commitsOf (key : FlagKey) {s s' : System} {ls : List SystemLabel}
    (h : run D.step s ls = some s') :
    D.commitsOf key s.shared <:+ D.commitsOf key s'.shared := by
  induction ls generalizing s with
  | nil =>
    cases h
    exact List.suffix_rfl
  | cons l ls ih =>
    obtain ⟨t, ht, hrest⟩ := run_cons_eq_some.mp h
    exact (step_commitsOf key ht).trans (ih hrest)

theorem run_invariant_no_commit {I : System → Prop} (R : SystemLabel → Prop)
    (hstep : ∀ s l s', I s → R l → D.step s l = some s' →
      D.commitsOf key s'.shared = D.commitsOf key s.shared → I s')
    {s s' : System} {ls : List SystemLabel} (hI : I s) (hR : ∀ l ∈ ls, R l)
    (h : run D.step s ls = some s')
    (hcommits : D.commitsOf key s'.shared = D.commitsOf key s.shared) : I s' := by
  induction ls generalizing s with
  | nil =>
    cases h
    exact hI
  | cons l ls ih =>
    obtain ⟨t, ht, hrest⟩ := run_cons_eq_some.mp h
    -- the first step commits nothing for the pair either, as the journal only grows
    have hst := step_commitsOf key ht
    have hts := run_commitsOf key hrest
    have hsame : D.commitsOf key t.shared = D.commitsOf key s.shared :=
      (hst.eq_of_length_le (hcommits ▸ hts.length_le)).symm
    exact ih (hstep s l t hI (hR l List.mem_cons_self) ht hsame)
      (fun m hm => hR m (List.mem_cons_of_mem l hm)) hrest (hcommits.trans hsame.symm)

/-- What a call that started after the row's last commit holds: the row itself, and
no commit of its own. -/
def Fresh (name : String) (row : Option Columns) : Phase → Prop
  | .loaded flag => flag.name = name ∧ row = some flag.columns
  | .fill flag => flag.name = name ∧ row = some flag.columns
  | .stored => False
  | .cache _ => False
  | _ => True

theorem fresh_of_not_inFlight {name : String} {row : Option Columns} {ph : Phase}
    (h : ph.inFlight = false) : Fresh name row ph := by
  cases ph <;> trivial

theorem move_fresh {i : ℕ} {c : Call} {svc : FeatureFlagService} {zone : TimeZone}
    {s s' : Stores} {ph ph' : Phase} {a : Action Outside}
    (h : Move svc zone i c s ph a ph' s') (hcommits : s'.commits = s.commits)
    (hph : Fresh c.name.val (s.table c.key) ph) : Fresh c.name.val (s.table c.key) ph' := by
  cases h with
  | loaded hm hrow hflag =>
    exact Call.flag_of_row hrow hflag
  | closed hm => exact hph
  | committed hm hcommit => simp at hcommits
  | setClosed hm => exact hph.elim
  | @interrupted ph x => cases ph <;> trivial
  | _ => trivial

/-- From here on the pair's row is `row`, its entries hold it or are gone by the
deadline, and its calls are fresh. -/
structure Settled (D : Deployment) (key : FlagKey) (row : Option Columns) (deadline : ℤ)
    (s : System) : Prop where
  sound : D.Sound s
  table_eq : s.shared.table key = row
  entries : ∀ e, s.shared.redis (cacheKey key.1 key.2) = some e →
    e.expiresAt ≤ deadline ∨ D.Decodes key row e.value
  fresh : ∀ i, (D.calls i).key = key → Fresh (D.calls i).name.val row (s.task i)

theorem Settled.coherentAt {row : Option Columns} {deadline : ℤ} {s : System}
    (h : D.Settled key row deadline s) (hclock : deadline ≤ s.shared.clock) :
    D.CoherentAt key s.shared := by
  intro text htext
  obtain ⟨e, he, hlive, rfl⟩ := Redis.getString_eq_some.mp htext
  rw [h.table_eq]
  obtain hgone | hdecodes := h.entries e he
  · omega
  · exact hdecodes

theorem own_step_settled {row : Option Columns} {deadline : ℤ} {s : System} {i : ℕ} {ph : Phase}
    {sh : Stores} {a : Action Outside} (hI : D.Settled (D.calls i).key row deadline s)
    (hmove : Move D.svc (D.zone i) i (D.calls i) s.shared (s.task i) a ph sh)
    (hs' : D.Sound ⟨sh, Function.update s.task i ph⟩)
    (hcommits : D.commitsOf (D.calls i).key sh = D.commitsOf (D.calls i).key s.shared) :
    D.Settled (D.calls i).key row deadline ⟨sh, Function.update s.task i ph⟩ := by
  have hfresh := hI.fresh i rfl
  have hquiet : sh.commits = s.shared.commits ∧ sh.table = s.shared.table := by
    obtain ⟨htable, hsame⟩ | ⟨_, _, _, _, _, -, -, -, -, -, hcons, -⟩ :=
      hmove.commit_cases fun r hr => hI.sound.row r hr
    · exact ⟨hsame, htable⟩
    · rw [commitsOf_cons D _ hcons, if_pos rfl] at hcommits
      simp at hcommits
  refine ⟨hs', (congrFun hquiet.2 _).trans hI.table_eq, ?_, ?_⟩
  · intro e he
    simp only at he
    obtain hredis | ⟨flag, hset, hredis⟩ := hmove.redis_cases
    · exact hI.entries e (hredis ▸ he)
    · rw [hredis] at he
      obtain rfl := Option.some.inj ((Stores.cached_redis_self ..).symm.trans he)
      -- a fill writes the row, and a refresh would follow a commit
      obtain hset | hset := hset
      · rw [hset] at hfresh
        exact .inr ⟨flag, D.svc.json.validateJson_dumpJson flag, hfresh⟩
      · rw [hset] at hfresh
        exact hfresh.elim
  · intro j hj
    by_cases hji : j = i
    · subst hji
      have hrow := hI.table_eq
      simp only [Function.update_self]
      exact hrow ▸ move_fresh hmove hquiet.1 (hrow.symm ▸ hfresh)
    · simpa [hji] using hI.fresh j hj

theorem step_settled {row : Option Columns} {deadline : ℤ} {s s' : System} {l : SystemLabel}
    (hI : D.Settled key row deadline s) (h : D.step s l = some s')
    (hcommits : D.commitsOf key s'.shared = D.commitsOf key s.shared) :
    D.Settled key row deadline s' := by
  have hs' := step_sound hI.sound h
  cases l with
  | env e =>
    rw [step_env h] at hs' ⊢
    exact ⟨hs', by simpa using hI.table_eq, fun x hx => hI.entries x (e.redis_some hx), hI.fresh⟩
  | task i a =>
    obtain ⟨ph, sh, hmove, rfl⟩ := step_task h
    by_cases hkey : (D.calls i).key = key
    · subst hkey
      exact own_step_settled hI hmove hs' hcommits
    · refine ⟨hs', ?_, fun x hx => hI.entries x ?_, fun j hj => ?_⟩
      · refine Eq.trans ?_ hI.table_eq
        exact hmove.table_frame (fun r hr => (hI.sound.row r hr).1) (Ne.symm hkey)
      · rwa [hmove.redis_frame (Ne.symm hkey)] at hx
      · have hji : j ≠ i := fun hji => hkey (hji ▸ hj)
        simpa [hji] using hI.fresh j hj

structure Reading (D : Deployment) (i : ℕ) (row : Option Columns) (deadline : ℤ) (s : System) :
    Prop where
  settled : D.Settled (D.calls i).key row deadline s
  late : deadline ≤ s.shared.clock
  onTrack : OnTrack (D.calls i).name.val row (s.task i)

theorem step_clock {s s' : System} {l : SystemLabel} (h : D.step s l = some s') :
    s.shared.clock ≤ s'.shared.clock := by
  cases l with
  | env e =>
    rw [step_env h]
    exact e.clock_le _
  | task i a =>
    obtain ⟨ph, sh, hmove, rfl⟩ := step_task h
    exact hmove.clock_eq.ge

theorem step_reading {i : ℕ} {row : Option Columns} {deadline : ℤ} {s s' : System}
    {l : SystemLabel} (hvalid : ValidRow row) (hI : D.Reading i row deadline s)
    (hl : ∀ o, l = .task i (.resume o) → o = .ok) (h : D.step s l = some s')
    (hcommits : D.commitsOf (D.calls i).key s'.shared = D.commitsOf (D.calls i).key s.shared) :
    D.Reading i row deadline s' := by
  refine ⟨step_settled hI.settled h hcommits, hI.late.trans (step_clock h), ?_⟩
  cases l with
  | env e =>
    rw [step_env h]
    exact hI.onTrack
  | task j a =>
    obtain ⟨ph, sh, hmove, rfl⟩ := step_task h
    by_cases hj : i = j
    · subst hj
      have havail : available (Label.task i a) := by
        cases a with
        | enter => trivial
        | resume o => exact hl o rfl
      have hrow := hI.settled.table_eq
      have hcoh := hI.settled.coherentAt hI.late
      simp only [Function.update_self]
      exact hrow ▸ move_onTrack hmove havail (hrow.symm ▸ hvalid) (fun _ => hcoh)
        (hrow.symm ▸ hI.onTrack)
    · simpa [hj] using hI.onTrack

theorem run_settled {row : Option Columns} {deadline : ℤ} {s s' : System} {ls : List SystemLabel}
    (hI : D.Settled key row deadline s) (h : run D.step s ls = some s')
    (hcommits : D.commitsOf key s'.shared = D.commitsOf key s.shared) :
    D.Settled key row deadline s' := by
  refine run_invariant_no_commit (fun _ => True) ?_ hI (fun _ _ => trivial) h hcommits
  exact fun _ _ _ hI _ hstep hsame => step_settled hI hstep hsame

theorem run_reading {i : ℕ} {row : Option Columns} {deadline : ℤ} {s s' : System}
    {ls : List SystemLabel} (hvalid : ValidRow row) (hI : D.Reading i row deadline s)
    (hls : ∀ o, Label.task i (.resume o) ∈ ls → o = .ok) (h : run D.step s ls = some s')
    (hcommits : D.commitsOf (D.calls i).key s'.shared = D.commitsOf (D.calls i).key s.shared) :
    D.Reading i row deadline s' := by
  refine run_invariant_no_commit (fun l => ∀ o, l = .task i (.resume o) → o = .ok) ?_ hI
    (fun l hl o ho => hls o (ho ▸ hl)) h hcommits
  exact fun _ _ _ hI hl hstep hsame => step_reading hvalid hI hl hstep hsame

theorem reading_of_enter {i : ℕ} {row : Option Columns} {deadline : ℤ} {s s' : System}
    (hI : D.Settled (D.calls i).key row deadline s) (hlate : deadline ≤ s.shared.clock)
    (hm : (D.calls i).method = .get) (h : D.step s (.task i .enter) = some s')
    (hcommits : D.commitsOf (D.calls i).key s'.shared = D.commitsOf (D.calls i).key s.shared) :
    D.Reading i row deadline s' := by
  refine ⟨step_settled hI h hcommits, hlate.trans (step_clock h), ?_⟩
  obtain ⟨ph, sh, hmove, rfl⟩ := step_task h
  generalize s.task i = ph₀ at hmove
  simp only [Function.update_self]
  cases hmove with
  | enterGet hm' => trivial
  | enterSet hm' => simp [hm] at hm'

theorem run_quiet {clock : ℤ} {redis : Redis} {table : Table} {ls : List SystemLabel} {s : System}
    (hentries : D.ShortLived key (start clock redis table).shared) (hvalid : ValidRow (table key))
    (h : run D.step (start clock redis table) ls = some s)
    (hquiet : ∀ j, (D.calls j).key = key → (s.task j).inFlight = false) :
    D.Settled key (s.shared.table key) (s.shared.clock + D.ttl) s ∧
      ValidRow (s.shared.table key) := by
  have hstep : ∀ s l s', (D.Sound s ∧ D.ShortLived key s.shared ∧ ValidRow (s.shared.table key)) →
      D.step s l = some s' →
      D.Sound s' ∧ D.ShortLived key s'.shared ∧ ValidRow (s'.shared.table key) :=
    fun s l s' hI h =>
      ⟨step_sound hI.1 h, step_shortLived hI.2.1 h, step_validRow hI.1 hI.2.2 h⟩
  obtain ⟨hs, hshort, hrow⟩ :=
    run_invariant hstep ⟨sound_start clock redis table, hentries, hvalid⟩ h
  exact ⟨⟨hs, rfl, fun e he => .inl (hshort e he),
    fun j hj => fresh_of_not_inFlight (hquiet j hj)⟩, hrow⟩

/-- Whatever fails and whatever is cancelled: when no call for the pair is in flight
at some time and none commits afterwards, a `get_flag` that is entered a TTL later
and whose own store calls succeed ends with the committed row, or with the missing
flag; until then its next store call is enabled, and at most four are left. -/
theorem getFlag_after_ttl (D : Deployment) (key : FlagKey) {clock : ℤ} {redis : Redis}
    {table : Table} (hentries : D.ShortLived key (start clock redis table).shared)
    (hvalid : ValidRow (table key)) {before between after : List SystemLabel} {s₁ s₂ s₃ : System}
    (h₁ : run D.step (start clock redis table) before = some s₁)
    (hquiet : ∀ j, (D.calls j).key = key → (s₁.task j).inFlight = false)
    (h₂ : run D.step s₁ between = some s₂) (hlate : s₁.shared.clock + D.ttl ≤ s₂.shared.clock)
    {i : ℕ} (hkey : (D.calls i).key = key) (hm : (D.calls i).method = .get)
    (h₃ : run D.step s₂ (.task i .enter :: after) = some s₃)
    (hok : ∀ o, Label.task i (.resume o) ∈ after → o = .ok)
    (hcommits : D.commitsOf key s₃.shared = D.commitsOf key s₁.shared) :
    s₃.shared.table key = s₁.shared.table key ∧
      ((∃ r, s₃.task i = .done r ∧
        Answers (D.calls i).name.val (s₃.shared.table key) r) ∨
      ((s₃.task i).inFlight = true ∧ (s₃.task i).remaining ≤ 4 ∧
        ∃ s₄, D.step s₃ (.task i (.resume .ok)) = some s₄ ∧
          (s₄.task i).remaining < (s₃.task i).remaining)) := by
  subst hkey
  obtain ⟨hsettled₁, hrow⟩ := run_quiet hentries hvalid h₁ hquiet
  obtain ⟨t, ht, hrest⟩ := run_cons_eq_some.mp h₃
  -- the journal only grows, so it is the same at every state in between
  have hgrow₂ := run_commitsOf (D.calls i).key h₂
  have hgrowt := step_commitsOf (D.calls i).key ht
  have hgrow₃ := run_commitsOf (D.calls i).key hrest
  have hsame₂ := hgrow₂.eq_of_length_le (hcommits ▸ (hgrowt.trans hgrow₃).length_le)
  have hsame₃ := hgrow₃.eq_of_length_le (hcommits ▸ (hgrow₂.trans hgrowt).length_le)
  have hsamet := (hsame₃.trans hcommits).trans hsame₂
  have hreading := run_reading hrow
    (reading_of_enter (run_settled hsettled₁ h₂ hsame₂.symm) hlate hm ht hsamet) hok hrest
    hsame₃.symm
  have hrow₃ := hreading.settled.table_eq
  refine ⟨hrow₃, ?_⟩
  cases hph : s₃.task i with
  | done r =>
    have hanswers := hreading.onTrack
    rw [hph] at hanswers
    exact .inl ⟨r, rfl, hrow₃ ▸ hanswers⟩
  | idle =>
    have hidle := hreading.onTrack
    rw [hph] at hidle
    exact hidle.elim
  | _ =>
    refine .inr ⟨rfl, by simp [Phase.remaining], ?_⟩
    rw [← hph]
    exact progress hreading.settled.sound (by simp [hph, Phase.inFlight]) .ok

/-- Every key holds a stale text with a second to live, five minutes pass, and a
`get_flag` finds the row. -/
theorem getFlag_after_ttl_stale :
    ∃ s r, run (sample fun _ => .get).step
      (start 0 (fun _ => some ⟨"stale", 1000⟩) fun _ => some ⟨true, 5, "eve"⟩)
      (.env (.tick 300000) :: solo 0 4) = some s ∧ s.task 0 = .done r ∧
      Answers "dark-mode" (some ⟨true, 5, "eve"⟩) r := by
  have h₁ : run (sample fun _ => .get).step
    (start 0 (fun _ => some ⟨"stale", 1000⟩) fun _ => some ⟨true, 5, "eve"⟩) [] = some _ := rfl
  have h₂ : run (sample fun _ => .get).step
    (start 0 (fun _ => some ⟨"stale", 1000⟩) fun _ => some ⟨true, 5, "eve"⟩)
    [.env (.tick 300000)] = some _ := rfl
  have h₃ : run (sample fun _ => .get).step
    ⟨(Event.tick 300000).step (start 0 (fun _ => some ⟨"stale", 1000⟩)
      fun _ => some ⟨true, 5, "eve"⟩).shared, fun _ => .idle⟩ (solo 0 4) = some _ := rfl
  refine ⟨_, _, rfl, rfl, ?_⟩
  obtain ⟨-, ⟨r, hr, hanswers⟩ | ⟨hflight, -⟩⟩ := getFlag_after_ttl (sample fun _ => .get)
    ("acme", "dark-mode") (by rintro e ⟨⟩; decide) (by rintro col ⟨⟩; decide) h₁ (fun _ _ => rfl) h₂
    (by decide) rfl rfl h₃ (by simp) rfl
  · cases hr
    exact hanswers
  · cases hflight

end Deployment

end PolyrepoTemplate
