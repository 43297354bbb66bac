import PolyrepoTemplate.Async.Runs
import PolyrepoTemplate.Logger.LogManager
import PolyrepoTemplate.Middlewares.CorrelationId
import PolyrepoTemplate.Routes.GetUserDetails
import PolyrepoTemplate.Store.DynamicBinding

namespace PolyrepoTemplate

open Async Asgi Text

def correlationIdField : PyStr := "correlation_id"
def tenantIdField : PyStr := "tenant_id"
def userIdField : PyStr := "user_id"

def requestFields : List PyStr := [correlationIdField, tenantIdField, userIdField]

variable {E : Type}

/-- A block the inner application has open: `get_user_details` suspended at its `yield`,
or a block of its own that leaves these keys alone. -/
inductive InnerBlock (E : Type) where
  | userDetails (tenantId userId : String) (details : UserDetails)
      (accepted : userDetails tenantId userId = .ok details)
  | other (values : Fields E) (free : ∀ key ∈ requestFields, values.get? key = none)

def InnerBlock.values : InnerBlock E → Fields E
  | .userDetails _ _ details _ =>
    (Dict.empty.set tenantIdField (.text details.tenantId)).set userIdField (.text details.userId)
  | .other values .. => values

def InnerBlock.headers : InnerBlock E → Option (String × String)
  | .userDetails tenantId userId .. => some (tenantId, userId)
  | .other .. => none

structure InnerFrame (E : Type) where
  code : InnerBlock E
  block : Dict.Block PyStr (Value E)
  values_eq : block.values = code.values

def correlationFields (correlationId : String) : Fields E :=
  Dict.empty.set correlationIdField (.text correlationId)

/-- `_correlation_id_from_headers`, with the UUID it draws if it has to. -/
def requestCorrelationId (request : HttpScope) (uuid : String) : String :=
  (inboundId request).getD uuid

theorem chosenId_eq {M : Type} (server : Server) (request : HttpScope) (x : Exchange M) :
    chosenId server request x = requestCorrelationId request (server.uuid4 x.uuids) := rfl

/-- `CorrelationIdMiddleware.__call__` suspended in the inner application, which has
`inner` open, innermost first. -/
structure Inside (E : Type) where
  request : HttpScope
  uuid : String
  block : Dict.Block PyStr (Value E)
  values_eq : block.values = correlationFields (requestCorrelationId request uuid)
  inner : List (InnerFrame E)

def Inside.openDetails (r : Inside E) : Option (String × String) :=
  r.inner.findSome? fun f => f.code.headers

structure RequestTask (E : Type) where
  context : Fields E
  inside : Option (Inside E)

def RequestTask.blocks (t : RequestTask E) : List (Dict.Block PyStr (Value E)) :=
  match t.inside with
  | some r => r.inner.map InnerFrame.block ++ [r.block]
  | none => []

def enterMiddleware (t : RequestTask E) (request : HttpScope) (uuid : String) : RequestTask E :=
  let values := correlationFields (requestCorrelationId request uuid)
  ⟨(t.context.enterBlock values).1,
    some ⟨request, uuid, (t.context.enterBlock values).2, rfl, []⟩⟩

def enterInner (t : RequestTask E) (r : Inside E) (code : InnerBlock E) : RequestTask E :=
  ⟨(t.context.enterBlock code.values).1,
    some { r with inner := ⟨code, (t.context.enterBlock code.values).2, rfl⟩ :: r.inner }⟩

/-- `get_user_details` up to its `yield`; a rejected pair ends it before it binds. -/
def enterUserDetails (t : RequestTask E) (r : Inside E) (tenantId userId : String) :
    RequestTask E :=
  match h : userDetails tenantId userId with
  | .ok details => enterInner t r (.userDetails tenantId userId details h)
  | .error _ => t

def leaveBlock (t : RequestTask E) (r : Inside E) : RequestTask E :=
  match r.inner with
  | f :: inner => ⟨t.context.exitBlock f.block, some { r with inner := inner }⟩
  | [] => ⟨t.context.exitBlock r.block, none⟩

inductive RequestAction (E : Type) where
  | enterMiddleware (request : HttpScope) (uuid : String)
  | enterUserDetails (tenantId userId : String)
  | enterOther (values : Fields E) (free : ∀ key ∈ requestFields, values.get? key = none)
  | leave (raised : Option E)
  | log (logger : ChildLogger E) (call : LogCall E) (now stack : PyStr) (handled : Option E)

structure Logged (ι E : Type) where
  request : ι
  inside : Option (Inside E)
  logger : ChildLogger E
  call : LogCall E
  record : Fields E

def Logged.Passes {ι : Type} (l : Logged ι E) (key : PyStr) : Prop :=
  l.call.kwargs.get? key ≠ none ∨ l.logger.bound.get? key ≠ none

section
variable {ι : Type} (m : LogManager E)

def RequestTask.logged (i : ι) (t : RequestTask E) (logger : ChildLogger E) (call : LogCall E)
    (now stack : PyStr) (handled : Option E) : Logged ι E :=
  ⟨i, t.inside, logger, call, m.record logger call ⟨t.context, now, stack, handled⟩⟩

/-- One step of the task of request `i`: the code between two awaits goes no further
than one block or one record. -/
def RequestTask.step (i : ι) (t : RequestTask E) (a : RequestAction E) (out : List (Logged ι E)) :
    Option (RequestTask E × List (Logged ι E)) :=
  match t.inside, a with
  | none, .enterMiddleware request uuid => some (enterMiddleware t request uuid, out)
  | some r, .enterUserDetails tenantId userId => some (enterUserDetails t r tenantId userId, out)
  | some r, .enterOther values free => some (enterInner t r (.other values free), out)
  | some r, .leave _ => some (leaveBlock t r, out)
  | _, .log logger call now stack handled =>
    if m.minLogLevel.admits call.method.logLevel then
      some (t, out ++ [t.logged m i logger call now stack handled])
    else some (t, out)
  | _, _ => none

abbrev RequestPool (ι E : Type) := Pool ι (RequestTask E) (List (Logged ι E))

def RequestPool.step [DecidableEq ι] (s : RequestPool ι E) (l : Label ι (RequestAction E) Empty) :
    Option (RequestPool ι E) :=
  Pool.step (RequestTask.step m) (fun e => nomatch e) s l

/-- No request has begun; each task has a copy of the context it was made in. -/
def RequestPool.start (base : ι → Fields E) : RequestPool ι E := ⟨[], fun i => ⟨base i, none⟩⟩

end

section
variable {base : Fields E} {t : RequestTask E} {r : Inside E}

/-- The context is what the open blocks make of the one the task began with. -/
def RequestTask.Nested (base : Fields E) (t : RequestTask E) : Prop :=
  Dict.Shallow base t.context t.blocks

theorem blocks_of_inside (hr : t.inside = some r) :
    t.blocks = r.inner.map InnerFrame.block ++ [r.block] := by
  rw [RequestTask.blocks, hr]

theorem nested_enterMiddleware (h : t.Nested base) (ht : t.inside = none) (request : HttpScope)
    (uuid : String) : (enterMiddleware t request uuid).Nested base := by
  have hblocks : t.blocks = [] := by rw [RequestTask.blocks, ht]
  rw [RequestTask.Nested, hblocks] at h
  exact h.enter _

theorem nested_enterInner (h : t.Nested base) (ht : t.inside = some r) (code : InnerBlock E) :
    (enterInner t r code).Nested base := by
  rw [RequestTask.Nested, blocks_of_inside ht] at h
  exact h.enter _

theorem nested_enterUserDetails (h : t.Nested base) (ht : t.inside = some r)
    (tenantId userId : String) : (enterUserDetails t r tenantId userId).Nested base := by
  unfold enterUserDetails
  split
  · exact nested_enterInner h ht _
  · exact h

theorem nested_leaveBlock (h : t.Nested base) (ht : t.inside = some r) :
    (leaveBlock t r).Nested base := by
  rw [RequestTask.Nested, blocks_of_inside ht] at h
  unfold leaveBlock
  split
  · next f inner hinner =>
    rw [hinner] at h
    exact h.exit
  · next hinner =>
    rw [hinner] at h
    exact h.exit

theorem enterUserDetails_rejected {tenantId userId : String} {e : RequestValidationError}
    (h : userDetails tenantId userId = .error e) : enterUserDetails t r tenantId userId = t := by
  unfold enterUserDetails
  split
  · next details hok =>
    rw [h] at hok
    cases hok
  · rfl

theorem InnerFrame.get?_correlationId (f : InnerFrame E) :
    f.block.values.get? correlationIdField = none := by
  rw [f.values_eq]
  cases f.code with
  | userDetails tenantId userId details accepted =>
    rw [InnerBlock.values, Dict.get?_set_of_ne _ _ (by decide), Dict.get?_set_of_ne _ _ (by decide),
      Dict.get?_empty]
  | other values free => exact free _ (by decide)

theorem InnerFrame.get?_tenantId (f : InnerFrame E) : f.block.values.get? tenantIdField =
    f.code.headers.map fun h => .text (strip h.1) := by
  rw [f.values_eq]
  cases f.code with
  | userDetails tenantId userId details accepted =>
    rw [InnerBlock.values, Dict.get?_set_of_ne _ _ (by decide), Dict.get?_set_self,
      (userDetails_eq_ok accepted).1]
    rfl
  | other values free => exact free _ (by decide)

theorem InnerFrame.get?_userId (f : InnerFrame E) : f.block.values.get? userIdField =
    f.code.headers.map fun h => .text (strip h.2) := by
  rw [f.values_eq]
  cases f.code with
  | userDetails tenantId userId details accepted =>
    rw [InnerBlock.values, Dict.get?_set_self, (userDetails_eq_ok accepted).2]
    rfl
  | other values free => exact free _ (by decide)

theorem Inside.get?_block (r : Inside E) {key : PyStr} (h : key ≠ correlationIdField) :
    r.block.values.get? key = none := by
  rw [r.values_eq, correlationFields, Dict.get?_set_of_ne _ _ h, Dict.get?_empty]

theorem Nested.get? (h : t.Nested base) (ht : t.inside = some r) (key : PyStr) :
    t.context.get? key = ((r.inner.findSome? fun f => f.block.values.get? key).or
      (r.block.values.get? key)).or (base.get? key) := by
  rw [Dict.Shallow.get?_eq_deep h, blocks_of_inside ht, Dict.deep, List.findSome?_append,
    List.findSome?_map, List.findSome?_singleton]
  rfl

theorem Nested.get?_correlationId (h : t.Nested base) (ht : t.inside = some r) :
    t.context.get? correlationIdField =
      some (.text (requestCorrelationId r.request r.uuid)) := by
  have hinner : (r.inner.findSome? fun f => f.block.values.get? correlationIdField) = none :=
    List.findSome?_eq_none_iff.mpr fun f _ => f.get?_correlationId
  rw [Nested.get? h ht, hinner, r.values_eq, correlationFields, Dict.get?_set_self]
  rfl

theorem Nested.get?_details (h : t.Nested base) (ht : t.inside = some r) {key : PyStr}
    {header : String × String → Value E} (hkey : key ≠ correlationIdField)
    (hbase : base.get? key = none)
    (hframe : ∀ f : InnerFrame E, f.block.values.get? key = f.code.headers.map header) :
    t.context.get? key = r.openDetails.map header := by
  have hinner : (r.inner.findSome? fun f => f.block.values.get? key) =
      r.openDetails.map header := by
    rw [Inside.openDetails, List.map_findSome?]
    exact congrArg (fun g => r.inner.findSome? g) (funext hframe)
  rw [Nested.get? h ht, hinner, r.get?_block hkey, hbase, Option.or_none, Option.or_none]

end

section
variable {ι : Type} {m : LogManager E}

/-- What the record of a call inside a request has under the keys the call leaves
alone. -/
structure Logged.Bracketed (l : Logged ι E) (r : Inside E) : Prop where
  correlationId : ¬ l.Passes correlationIdField → l.record.get? correlationIdField =
    some (.text (requestCorrelationId r.request r.uuid))
  tenantId : ¬ l.Passes tenantIdField →
    l.record.get? tenantIdField = r.openDetails.map fun h => .text (strip h.1)
  userId : ¬ l.Passes userIdField →
    l.record.get? userIdField = r.openDetails.map fun h => .text (strip h.2)

section
variable {i : ι} {t : RequestTask E} {logger : ChildLogger E} {call : LogCall E} {now stack : PyStr}
  {handled : Option E}

theorem RequestTask.get?_logged {key : PyStr}
    (hpasses : ¬ (t.logged m i logger call now stack handled).Passes key)
    (hkey : key ∉ LogManager.stampedKeys ++ LogManager.consumedKeys) :
    (t.logged m i logger call now stack handled).record.get? key =
      (t.context.get? key).map Value.decoded := by
  obtain ⟨hkwargs, hbound⟩ := not_or.mp hpasses
  have hcall : call.kwargs.get? key = none := not_not.mp hkwargs
  have hlogger : logger.bound.get? key = none := not_not.mp hbound
  rw [RequestTask.logged, LogManager.get?_record_other hkey, hcall, hlogger]
  rfl

theorem RequestTask.logged_bracketed {r : Inside E} {base : Fields E} (h : t.Nested base)
    (ht : t.inside = some r) (htenant : base.get? tenantIdField = none)
    (huser : base.get? userIdField = none) :
    (t.logged m i logger call now stack handled).Bracketed r where
  correlationId hpasses := by
    rw [RequestTask.get?_logged hpasses (by decide), Nested.get?_correlationId h ht]
    rfl
  tenantId hpasses := by
    rw [RequestTask.get?_logged hpasses (by decide),
      Nested.get?_details h ht (by decide) htenant InnerFrame.get?_tenantId, Option.map_map]
    rfl
  userId hpasses := by
    rw [RequestTask.get?_logged hpasses (by decide),
      Nested.get?_details h ht (by decide) huser InnerFrame.get?_userId, Option.map_map]
    rfl

end

/-- What a step does to the context of its task and to the stream. -/
theorem RequestTask.step_nested {i : ι} {t t' : RequestTask E} {a : RequestAction E}
    {out out' : List (Logged ι E)} {base : Fields E} (htenant : base.get? tenantIdField = none)
    (huser : base.get? userIdField = none) (h : t.Nested base)
    (hout : ∀ l ∈ out, ∀ r, l.inside = some r → l.Bracketed r)
    (hstep : RequestTask.step m i t a out = some (t', out')) :
    t'.Nested base ∧ ∀ l ∈ out', ∀ r, l.inside = some r → l.Bracketed r := by
  unfold RequestTask.step at hstep
  split at hstep
  · next ht =>
    cases hstep
    exact ⟨nested_enterMiddleware h ht _ _, hout⟩
  · next ht =>
    cases hstep
    exact ⟨nested_enterUserDetails h ht _ _, hout⟩
  · next ht =>
    cases hstep
    exact ⟨nested_enterInner h ht _, hout⟩
  · next ht =>
    cases hstep
    exact ⟨nested_leaveBlock h ht, hout⟩
  · split at hstep
    · cases hstep
      refine ⟨h, List.forall_mem_append.mpr ⟨hout, List.forall_mem_singleton.mpr ?_⟩⟩
      intro r hr
      exact RequestTask.logged_bracketed h hr htenant huser
    · cases hstep
      exact ⟨h, hout⟩
  · cases hstep

theorem RequestTask.step_enterUserDetails {i : ι} {t t' : RequestTask E} {tenantId userId : String}
    {out out' : List (Logged ι E)}
    (h : RequestTask.step m i t (.enterUserDetails tenantId userId) out = some (t', out')) :
    ∃ r, t' = enterUserDetails t r tenantId userId ∧ out' = out := by
  rcases t with ⟨context, _ | r⟩
  · cases h
  · cases h
    exact ⟨r, rfl, rfl⟩

/-- For every interleaving of requests whose tasks begin without the two fields: every
record logged inside a request has the fields of that request, a rejected pair of headers
changes nothing, and a context is again what it was once the middleware has ended. -/
theorem requests_bracketed [DecidableEq ι] (m : LogManager E) (base : ι → Fields E)
    (hbase : ∀ i, (base i).get? tenantIdField = none ∧ (base i).get? userIdField = none)
    {ls : List (Label ι (RequestAction E) Empty)} {s : RequestPool ι E}
    (hrun : run (RequestPool.step m) (RequestPool.start base) ls = some s) :
    (∀ l ∈ s.shared, ∀ r, l.inside = some r → l.Bracketed r) ∧
    (∀ i tenantId userId e s', userDetails tenantId userId = .error e →
      RequestPool.step m s (.task i (.enterUserDetails tenantId userId)) = some s' → s' = s) ∧
    ∀ i, (s.task i).inside = none → ∀ key, (s.task i).context.get? key = (base i).get? key := by
  have hinvariant : (∀ i, (s.task i).Nested (base i)) ∧
      ∀ l ∈ s.shared, ∀ r, l.inside = some r → l.Bracketed r := by
    refine run_invariant (I := fun s : RequestPool ι E => (∀ i, (s.task i).Nested (base i)) ∧
      ∀ l ∈ s.shared, ∀ r, l.inside = some r → l.Bracketed r) ?_ ⟨fun i => ?_, ?_⟩ hrun
    · rintro s (⟨i, a⟩ | ⟨⟨⟩⟩) s' ⟨hnested, hout⟩ hstep
      obtain ⟨t, out, ht, rfl⟩ := Pool.step_task hstep
      have hnext := RequestTask.step_nested (hbase i).1 (hbase i).2 (hnested i) hout ht
      refine ⟨fun j => ?_, hnext.2⟩
      by_cases hj : j = i
      · subst hj
        simpa using hnext.1
      · simpa [hj] using hnested j
    · exact .outside fun key => rfl
    · exact List.forall_mem_nil _
  obtain ⟨hnested, hout⟩ := hinvariant
  refine ⟨hout, ?_, ?_⟩
  · intro i tenantId userId e s' hrejected hstep
    obtain ⟨t, out, ht, rfl⟩ := Pool.step_task hstep
    obtain ⟨r, rfl, rfl⟩ := RequestTask.step_enterUserDetails ht
    rw [enterUserDetails_rejected hrejected, Function.update_eq_self]
  · intro i hinside key
    have hblocks : (s.task i).blocks = [] := by rw [RequestTask.blocks, hinside]
    have hshallow := hnested i
    rw [RequestTask.Nested, hblocks] at hshallow
    exact hshallow.get?_eq_deep

/-- One request logs with its headers bound, another without. -/
theorem requests_bracketed_two :
    let m : LogManager Unit := ⟨.info, .dev, "1.0", "host", fun _ => "Traceback", fun _ => .null⟩
    let call : RequestAction Unit := .log ⟨.empty⟩ ⟨.named .info, "event", .empty⟩ "now" "" none
    let ls : List (Label Bool (RequestAction Unit) Empty) :=
      [.task true (.enterMiddleware ⟨"/", []⟩ "a"), .task false (.enterMiddleware ⟨"/", []⟩ "b"),
        .task true (.enterUserDetails " tenant " "user"), .task true call, .task false call,
        .task true (.leave none), .task true (.leave (some ()))]
    ∃ s, run (RequestPool.step m) (RequestPool.start fun _ => .empty) ls = some s ∧
      s.shared.length = 2 ∧ (∀ l ∈ s.shared, ∀ r, l.inside = some r → l.Bracketed r) ∧
      (s.task true).inside = none ∧ ∀ key, (s.task true).context.get? key = none := by
  intro m call ls
  have hrun : run (RequestPool.step m) (RequestPool.start fun _ => .empty) ls = some _ := rfl
  have hbracketed := requests_bracketed m (fun _ => .empty) (fun _ => ⟨rfl, rfl⟩) hrun
  exact ⟨_, hrun, rfl, hbracketed.1, rfl, hbracketed.2.2 true rfl⟩

end

end PolyrepoTemplate
