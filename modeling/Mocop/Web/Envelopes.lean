import Mocop.Web.Access

/-!
# `Mocop.Web.Envelopes`: every error is a published one

`/api/meta` publishes the error codes with their statuses. Whatever a client sends and whatever
the monitor, the inventory and the updates answer, the code of an error envelope is published with
the status of its reply, and the field that it names is a query parameter or a body field of the
route, or the name that is no parameter (`answer_published`). An error names no field when the
target of the request cannot be split.
-/

set_option autoImplicit false

namespace Mocop.Web

/-! ### What a computation returns -/

section Always
variable {W α β : Type} {P : α → Prop} {Q : β → Prop}

/-- What a computation returns has a property, whatever the state. -/
def Always (P : α → Prop) (x : StateM W α) : Prop := ∀ world, P (x.run world).1

theorem always_pure {a : α} (h : P a) : Always P (pure a : StateM W α) := fun _ => h

theorem always_bind {x : StateM W α} {f : α → StateM W β} (hx : Always P x)
    (hf : ∀ a, P a → Always Q (f a)) : Always Q (x >>= f) :=
  fun world => hf _ (hx world) _

/-- The rest of a sequence decides, where nothing is known of its first part. -/
theorem always_then {x : StateM W α} {f : α → StateM W β} (hf : ∀ a, Always Q (f a)) :
    Always Q (x >>= f) :=
  fun _ => hf _ _

theorem always_ite {condition : Prop} [Decidable condition] {x y : StateM W α}
    (hx : condition → Always P x) (hy : ¬ condition → Always P y) :
    Always P (if condition then x else y) := by
  split
  · next h => exact hx h
  · next h => exact hy h

end Always

/-- A mapped list that fails does so on an element. -/
theorem exists_of_mapM_error {ε α β : Type} {f : α → Except ε β} {l : List α} {e : ε}
    (h : l.mapM f = .error e) : ∃ x ∈ l, f x = .error e := by
  induction l with
  | nil => cases h
  | cons x rest ih =>
    rw [List.mapM_cons] at h
    cases hx : f x with
    | error e' =>
      rw [hx] at h
      exact ⟨x, List.mem_cons_self, by cases h; exact hx⟩
    | ok b =>
      rw [hx] at h
      cases hrest : rest.mapM f with
      | error e' =>
        obtain ⟨y, hy, herror⟩ := ih (by rw [hrest] at h ⊢; cases h; rfl)
        exact ⟨y, List.mem_cons_of_mem _ hy, herror⟩
      | ok bs =>
        rw [hrest] at h
        cases h

/-- A checked list that fails does so on an element. -/
theorem exists_of_forM_error {ε α : Type} {f : α → Except ε Unit} {l : List α} {e : ε}
    (h : l.forM f = .error e) : ∃ x ∈ l, f x = .error e := by
  induction l with
  | nil => cases h
  | cons x rest ih =>
    change (f x >>= fun _ => rest.forM f) = .error e at h
    cases hx : f x with
    | error e' =>
      rw [hx] at h
      exact ⟨x, List.mem_cons_self, by cases h; exact hx⟩
    | ok _ =>
      rw [hx] at h
      obtain ⟨y, hy, herror⟩ := ih h
      exact ⟨y, List.mem_cons_of_mem _ hy, herror⟩

/-! ### Published errors -/

/-- Whether a field of an error is one of the route, or the unknown name that it complains of. -/
def NamesField (path : String) (code : ErrorCode) (name : String) : Prop :=
  (∃ schema, entry querySchemas path = some schema
    ∧ ((entry schema.parameters name).isSome = true ↔ code ≠ .unknownQueryParameter))
  ∨ ∃ schema, entry writeSchemas path = some schema ∧ (entry schema.fields name).isSome = true

/-- Whether the code of a reply is published with its status, and its field is one of the
route. -/
def Reply.Published (path : String) (reply : Reply) : Prop :=
  match reply.content with
  | .error _ code field _ =>
    (code, reply.status) ∈ errorCodes ∧ ∀ name ∈ field, NamesField path code name
  | .probe _ refusal => ∀ code ∈ refusal, (code, reply.status) ∈ errorCodes
  | _ => True

/-- Whether the error of the reply to a request is published. A target that cannot be split has no
route, and the error is a published one of any route then: it names no field. -/
def Reply.Answers (gate : Gate) (request : Request) (reply : Reply) : Prop :=
  match splitRequestTarget gate request with
  | .ok target => reply.Published target.1
  | .error _ => ∀ path, reply.Published path

variable {reply : Reply} {path : String} {schema : QuerySchema} {error : SchemaError}

/-- An error of no route answers every request. -/
theorem answers_of_published {gate : Gate} {request : Request} (h : ∀ path, reply.Published path) :
    reply.Answers gate request := by
  unfold Reply.Answers
  split
  · exact h _
  · exact h

/-- An error without a field. -/
theorem published_sendError {path message : String} {status : ℕ} {code : ErrorCode}
    {extraHeaders : List (String × String)} (h : (code, status) ∈ errorCodes) :
    (sendError message status code none extraHeaders).Published path :=
  ⟨h, fun _ hname => by cases hname⟩

@[simp] theorem published_sendJson {value : Json} {status : ℕ} :
    (sendJson value status).Published path := trivial

@[simp] theorem published_close :
    reply.close.Published path ↔ reply.Published path := Iff.rfl

theorem published_unavailable {path message : String} : (unavailable message).Published path :=
  published_sendError (by decide)

theorem published_dashboardRequired : dashboardRequired.Published path :=
  published_sendError (by decide)

theorem published_refusal (refusal : Refusal) : refusal.reply.Published path := by
  cases refusal with
  | untrustedOrigin => exact published_sendError (by decide)
  | authenticationRequired =>
    exact ⟨show (ErrorCode.authenticationRequired, 403) ∈ errorCodes by decide,
      fun _ hname => by cases hname⟩

theorem published_fallback {path method target : String} :
    (sendRouteFallback method target).Published path := by
  unfold sendRouteFallback
  split
  · trivial
  · split
    · exact published_sendError (by decide)
    · exact published_sendError (by decide)

/-! ### Queries and bodies -/

/-- The codes of the query schemas are published, and none is the one of an unknown name. -/
theorem querySchemas_published : ∀ schema ∈ querySchemas,
    ((schema.2.shapeCode, 400) ∈ errorCodes ∧ schema.2.shapeCode ≠ .unknownQueryParameter)
    ∧ ∀ parameter ∈ schema.2.parameters,
      ((parameter.2.invalidCode, 400) ∈ errorCodes
        ∧ parameter.2.invalidCode ≠ .unknownQueryParameter)
      ∧ (entry schema.2.parameters parameter.1).isSome = true := by decide +kernel

/-- A name of a query that no parameter has. -/
theorem entry_of_unknownName {pairs : List (String × String)} {name : String}
    (h : unknownName schema pairs = some name) : entry schema.parameters name = none := by
  have hmem := List.mem_of_mem_head? h
  rw [List.mem_mergeSort, List.mem_filter] at hmem
  exact Option.isNone_iff_eq_none.mp hmem.2

/-- A refused query: an unknown name, a wrong shape, or a value out of bounds. -/
theorem parseQuery_error {rules : QueryRules} {query : String}
    (h : parseQuery rules schema query = .error error) :
    (∃ name, error.field = some name ∧ error.code = .unknownQueryParameter
      ∧ entry schema.parameters name = none)
    ∨ ∃ parameter ∈ schema.parameters, error.field = some parameter.1
      ∧ (error.code = schema.shapeCode ∨ error.code = parameter.2.invalidCode) := by
  unfold parseQuery at h
  dsimp only at h
  cases hunknown : unknownName schema (parseQsl rules query) with
  | some name =>
    rw [hunknown] at h
    obtain rfl := Except.error.inj h
    exact .inl ⟨name, rfl, rfl, entry_of_unknownName hunknown⟩
  | none =>
    rw [hunknown] at h
    right
    dsimp only at h
    cases hshape : shapeQuery schema (parseQsl rules query) with
    | error shapeError =>
      rw [hshape] at h
      obtain rfl := Except.error.inj h
      obtain ⟨⟨name, parameter⟩, hparameter, herror⟩ := exists_of_mapM_error hshape
      refine ⟨_, hparameter, ?_⟩
      dsimp only at herror
      cases hsupplied : supplied parameter (given (parseQsl rules query) name) with
      | none =>
        rw [hsupplied] at herror
        obtain rfl := Except.error.inj herror
        exact ⟨rfl, .inl rfl⟩
      | some text =>
        rw [hsupplied] at herror
        cases herror
    | ok shaped =>
      rw [hshape] at h
      obtain ⟨⟨name, parameter, text⟩, hmem, herror⟩ := exists_of_mapM_error h
      obtain ⟨⟨name', parameter'⟩, hparameter, hsupplied⟩ := exists_of_mem_mapM hshape hmem
      dsimp only at hsupplied
      split at hsupplied
      · cases hsupplied
      · cases hsupplied
        refine ⟨_, hparameter, ?_⟩
        cases hvalue : queryValue rules name parameter text with
        | ok value =>
          rw [hvalue] at herror
          cases herror
        | error valueError =>
          rw [hvalue] at herror
          obtain rfl := Except.error.inj herror
          unfold queryValue at hvalue
          split at hvalue
          · cases hvalue
          · dsimp only at hvalue
            split at hvalue
            · cases hvalue
            · obtain rfl := Except.error.inj hvalue
              exact ⟨rfl, .inr rfl⟩
          · cases hvalue

/-- The error of a refused query of a route. -/
theorem published_parseQuery {rules : QueryRules} {query : String}
    (hschema : entry querySchemas path = some schema)
    (h : parseQuery rules schema query = .error error) : error.reply.Published path := by
  obtain ⟨hshape, hparameters⟩ := querySchemas_published _ (mem_of_entry hschema)
  rcases parseQuery_error h with ⟨name, hfield, hcode, hnone⟩ | ⟨parameter, hmem, hfield, hcode⟩
  · have hpublished : (error.code, 400) ∈ errorCodes := by
      rw [hcode]
      decide
    refine ⟨hpublished, fun field hname => .inl ⟨schema, hschema, ?_⟩⟩
    obtain rfl : name = field := Option.some.inj (hfield.symm.trans hname)
    simp [hnone, hcode]
  · obtain ⟨hinvalid, hsome⟩ := hparameters parameter hmem
    have hpublished : (error.code, 400) ∈ errorCodes ∧ error.code ≠ .unknownQueryParameter := by
      rcases hcode with heq | heq
      · rw [heq]
        exact hshape
      · rw [heq]
        exact hinvalid
    refine ⟨hpublished.1, fun field hname => .inl ⟨schema, hschema, ?_⟩⟩
    obtain rfl : parameter.1 = field := Option.some.inj (hfield.symm.trans hname)
    exact ⟨fun _ => hpublished.2, fun _ => hsome⟩

/-- A refused body: its shape, or one of its fields. -/
theorem validateBody_error {schema : BodySchema} {payload : Payload}
    (h : validateBody schema payload = .error error) :
    (error.code = .invalidSchema ∨ error.code = .invalidSettings)
      ∧ ∀ name ∈ error.field, (entry schema.fields name).isSome = true := by
  cases payload with
  | other =>
    obtain rfl := Except.error.inj h
    exact ⟨.inl rfl, fun _ hname => by cases hname⟩
  | object members =>
    unfold validateBody at h
    dsimp only at h
    split at h
    · have hchecked : members.forM schema.checkMember = .error error := by
        cases hcheck : members.forM schema.checkMember with
        | error e =>
          rw [hcheck] at h
          cases h
          rfl
        | ok _ =>
          rw [hcheck] at h
          cases h
      obtain ⟨member, -, herror⟩ := exists_of_forM_error hchecked
      unfold BodySchema.checkMember at herror
      split at herror
      · cases herror
      · next field hfield =>
        split at herror
        · obtain rfl := Except.error.inj herror
          exact ⟨.inl rfl, fun name hname => by
            obtain rfl := Option.some.inj hname
            rw [hfield]
            rfl⟩
        · split at herror
          · obtain rfl := Except.error.inj herror
            exact ⟨.inr rfl, fun name hname => by
              obtain rfl := Option.some.inj hname
              rw [hfield]
              rfl⟩
          · cases herror
    · obtain rfl := Except.error.inj h
      exact ⟨.inl rfl, fun _ hname => by cases hname⟩

/-- The error of a refused body of a route. -/
theorem published_validateBody {schema : BodySchema} {payload : Payload}
    (hschema : entry writeSchemas path = some schema)
    (h : validateBody schema payload = .error error) : error.reply.Published path := by
  obtain ⟨hcode, hfield⟩ := validateBody_error h
  refine ⟨?_, fun name hname => .inr ⟨schema, hschema, hfield name hname⟩⟩
  show (error.code, 400) ∈ errorCodes
  rcases hcode with heq | heq
  · rw [heq]
    decide
  · rw [heq]
    decide

/-! ### Handlers -/

section Handlers
variable {W : Type} {server : Server W} {gate : Gate} {request : Request} {query : String}
  {body : Body}

/-- A read with a query publishes its errors when the rest of the handler does. -/
theorem published_withQuery {handler : QueryValues → StateM W Reply}
    (h : ∀ values, Always (Reply.Published path) (handler values)) :
    Always (Reply.Published path) (withQuery server path query handler) := by
  unfold withQuery
  split
  · exact always_pure (published_sendError (by decide))
  · next schema hschema =>
    split
    · next error herror => exact always_pure (published_parseQuery hschema herror)
    · exact h _

theorem published_withDashboardRead {handler : StateM W Reply}
    (h : Always (Reply.Published path) handler) :
    Always (Reply.Published path) (withDashboardRead server request handler) :=
  always_ite (fun _ => h) fun _ => always_pure published_dashboardRequired

theorem published_sendKnown {document : Option Json} {message : String} {code : ErrorCode}
    (h : (code, 404) ∈ errorCodes) : (sendKnown document message code).Published path := by
  cases document with
  | some document => exact published_sendJson
  | none => exact published_sendError h

theorem published_sendReport {report : Option Json} : (sendReport report).Published path := by
  cases report with
  | some report => exact published_sendJson
  | none => exact published_sendError (by decide)

/-- The handlers of the reads with a query. -/
theorem published_queryReads : ∀ read ∈ queryReads server request,
    Always (Reply.Published read.1) (read.2 query) := by
  simp only [queryReads, List.forall_mem_cons, List.not_mem_nil, false_implies, implies_true,
    and_true]
  refine ⟨?_, ?_, ?_, ?_, ?_, ?_, ?_, ?_, ?_⟩
  · exact published_withQuery fun values => always_then fun history =>
      always_pure (published_sendKnown (by decide))
  · exact published_withQuery fun values => always_then fun usage =>
      always_pure published_sendJson
  · exact published_withQuery fun values => always_then fun report =>
      always_pure published_sendReport
  · refine published_withQuery fun values => always_then fun report => ?_
    cases report with
    | some report => exact always_pure published_sendReport
    | none => exact always_pure (published_sendError (by decide))
  · exact published_withQuery fun values => always_then fun brief =>
      always_pure published_sendJson
  · exact published_withQuery fun values => always_then fun capacity =>
      always_pure published_sendJson
  · exact published_withDashboardRead (published_withQuery fun values =>
      always_then fun history => always_pure (published_sendKnown (by decide)))
  · exact published_withQuery fun values => always_then fun incidents =>
      always_pure published_sendJson
  · exact published_withDashboardRead (published_withQuery fun values =>
      always_then fun bundle => always_pure (published_sendKnown (by decide)))

theorem published_inventoryView {missing failed : String}
    {load : InventoryController W → StateM W (Except InventoryError Json)} :
    Always (Reply.Published path) (sendInventoryView server request load missing failed) := by
  refine published_withDashboardRead ?_
  cases server.inventory with
  | none => exact always_pure published_unavailable
  | some inventory =>
    refine always_then fun loaded => ?_
    cases loaded with
    | ok payload => exact always_pure published_sendJson
    | error _ => exact always_pure published_unavailable

/-- The handlers of the reads without a query. -/
theorem published_plainReads : ∀ read ∈ plainReads server request,
    Always (Reply.Published path) read.2 := by
  simp only [plainReads, List.forall_mem_cons, List.not_mem_nil, false_implies, implies_true,
    and_true]
  refine ⟨published_inventoryView, published_inventoryView, ?_, ?_, ?_⟩
  · refine published_withDashboardRead ?_
    cases server.updates with
    | some updates => exact always_then fun status => always_pure published_sendJson
    | none => exact always_pure published_sendJson
  · exact always_then fun world => always_pure published_sendJson
  · refine always_then fun snapshot => ?_
    cases server.renderOpenmetrics snapshot with
    | some payload => exact always_pure trivial
    | none => exact always_pure (published_sendError (by decide))

theorem published_sendEvents : Always (Reply.Published path) (sendEvents server) := by
  refine always_then fun world => ?_
  refine always_ite (fun _ => ?_) fun _ => ?_
  · exact always_pure (published_close.mpr published_unavailable)
  · exact always_then fun _ => always_pure trivial

theorem published_sendStatic {filename : String} :
    (sendStatic gate request filename).Published path := by
  unfold sendStatic
  split
  · trivial
  · dsimp only
    split
    · trivial
    · trivial

theorem published_sendHealth {target : String} {health : Health} :
    (sendHealth target health).Published path := by
  unfold sendHealth
  split
  · exact published_sendJson
  · exact published_sendJson

/-- A read publishes its errors. -/
theorem published_respondToRead :
    Always (Reply.Published path) (respondToRead server request path query) := by
  unfold respondToRead
  refine always_ite (fun _ => always_then fun _ => always_pure published_sendJson) fun _ => ?_
  refine always_ite (fun _ => ?_) fun _ => ?_
  · refine always_ite (fun _ => always_pure (published_sendError (by decide))) fun _ => ?_
    exact published_sendEvents
  split
  · next read hread => exact published_queryReads _ (mem_of_entry hread)
  · next read _ hread => exact published_plainReads _ (mem_of_entry hread)
  · refine always_ite (fun _ => always_then fun _ => always_pure published_sendHealth) fun _ => ?_
    cases entry server.staticRoutes path with
    | some filename => exact always_pure published_sendStatic
    | none => exact always_pure published_fallback

theorem published_requireAuthentication : Always (fun reply => ∀ refusal ∈ reply,
    Reply.Published path refusal) (requireAuthentication server request path) := by
  unfold requireAuthentication
  cases refused server.toGate request path with
  | some refusal =>
    exact always_pure fun _ h => by
      obtain rfl := Option.some.inj h
      exact published_refusal refusal
  | none =>
    refine always_ite (fun _ => always_then fun _ => ?_) fun _ => ?_
    · exact always_pure fun _ h => by cases h
    · exact always_pure fun _ h => by cases h

/-- The error of a target that cannot be split. -/
theorem published_splitRequestTarget (h : splitRequestTarget gate request = .error reply) :
    reply.Published path := by
  unfold splitRequestTarget at h
  split at h
  · cases h
  · cases h
    exact published_close.mpr (published_sendError (by decide))

theorem published_respondToReadRequest :
    Always (Reply.Answers server.toGate request) (respondToReadRequest server request) := by
  unfold respondToReadRequest
  refine always_ite (fun _ => always_pure (answers_of_published fun path => ?_)) fun _ => ?_
  · exact published_close.mpr (published_sendError (by decide))
  unfold Reply.Answers
  cases hsplit : splitRequestTarget server.toGate request with
  | error reply => exact always_pure fun path => published_splitRequestTarget hsplit
  | ok target =>
    refine always_bind published_requireAuthentication fun refusal hrefusal => ?_
    cases refusal with
    | some refusal => exact always_pure (hrefusal refusal rfl)
    | none =>
      refine always_ite (fun _ => always_pure (published_sendError (by decide))) fun _ => ?_
      exact published_respondToRead

/-! ### Writes -/

/-- A configuration write gives a snapshot or a published error. -/
theorem published_writeConfiguration (path : String) {rejected : Reply}
    {operation : InventoryController W → StateM W (Except InventoryError Json)}
    (h : rejected.Published path) :
    Always (fun written => ∀ reply, written = .error reply → Reply.Published path reply)
      (writeConfiguration server operation rejected) := by
  unfold writeConfiguration
  cases server.inventory with
  | none => exact always_pure fun _ heq => by cases heq; exact published_unavailable
  | some inventory =>
    refine always_then fun result => ?_
    cases result with
    | ok value => exact always_pure fun _ heq => by cases heq
    | error error =>
      cases error with
      | request _ => exact always_pure fun _ heq => by cases heq; exact h
      | inventory _ => exact always_pure fun _ heq => by cases heq; exact published_unavailable

theorem published_sendWritten
    {operation : InventoryController W → StateM W (Except InventoryError Json)} :
    Always (Reply.Published path)
      (do return sendWritten (← writeConfiguration server operation)) := by
  refine always_bind (published_writeConfiguration path (published_sendError (by decide)))
    fun written hwritten => ?_
  cases written with
  | ok snapshot => exact always_pure published_sendJson
  | error reply => exact always_pure (hwritten reply rfl)

/-- A body field at fault is one of the schema of the route. -/
theorem published_invalidSettings {message name : String} {schema : BodySchema}
    (hschema : entry writeSchemas path = some schema)
    (hname : (entry schema.fields name).isSome = true) :
    (invalidSettings message (some name)).Published path :=
  ⟨show (ErrorCode.invalidSettings, 400) ∈ errorCodes by decide,
    fun _ h => .inr ⟨schema, hschema, Option.some.inj h ▸ hname⟩⟩

theorem published_requestProbe : Always (Reply.Published path) (requestProbe server body) := by
  unfold requestProbe
  cases server.probeControl with
  | none => exact always_pure published_unavailable
  | some control =>
    refine always_then fun result => always_pure ?_
    show ∀ code ∈ (probeStatus result.status).2, (code, (probeStatus result.status).1) ∈ errorCodes
    unfold probeStatus
    split
    · simp [errorCodes]
    · split
      · simp [errorCodes]
      · split
        · simp [errorCodes]
        · simp

theorem published_changeIncidentAction :
    Always (Reply.Published "/api/settings/incident-action")
      (changeIncidentAction server body) := by
  have hinactive : ∀ message, (incidentNotActive message).Published
      "/api/settings/incident-action" := fun _ => published_sendError (by decide)
  unfold changeIncidentAction
  refine always_ite (fun hrejected => always_pure ?_) fun _ => ?_
  · obtain ⟨name, hname⟩ := Option.isSome_iff_exists.mp hrejected
    rw [hname]
    refine published_invalidSettings (by rfl) ?_
    unfold rejectedField at hname
    dsimp only at hname
    split at hname
    · cases hname; rfl
    · split at hname
      · cases hname; rfl
      · split at hname
        · cases hname; rfl
        · split at hname
          · cases hname; rfl
          · cases hname
  · refine always_then fun matches_ => ?_
    refine always_ite (fun _ => always_pure (hinactive _)) fun _ => ?_
    refine always_bind (published_writeConfiguration "/api/settings/incident-action"
      (published_sendError (by decide)))
      fun written hwritten => ?_
    cases written with
    | error reply => exact always_pure (hwritten reply rfl)
    | ok snapshot =>
      refine always_then fun still => ?_
      exact always_ite (fun _ => always_pure (hinactive _)) fun _ => always_pure published_sendJson

/-- The handlers of the writes. -/
theorem published_writeHandlers : ∀ write ∈ writeHandlers server,
    Always (Reply.Published write.1) (write.2 body) := by
  simp only [writeHandlers, List.forall_mem_cons, List.not_mem_nil, false_implies, implies_true,
    and_true]
  refine ⟨published_sendWritten, ?_, ?_, ?_, published_changeIncidentAction,
    published_requestProbe, ?_, ?_, ?_⟩
  · refine always_bind (published_writeConfiguration "/api/settings/collector"
      (published_sendError (by decide)))
      fun written hwritten => ?_
    cases written with
    | error reply => exact always_pure (hwritten reply rfl)
    | ok settings =>
      exact always_then fun _ => always_then fun snapshot => always_pure published_sendJson
  · refine always_ite (fun _ => published_sendWritten) fun _ => always_pure ?_
    exact published_invalidSettings (by rfl) (by rfl)
  · refine always_ite (fun _ => published_sendWritten) fun _ => always_pure ?_
    exact published_invalidSettings (by rfl) (by rfl)
  · refine always_then fun snapshot => ?_
    refine always_ite (fun _ => always_pure (published_sendError (by decide))) fun _ => ?_
    refine always_then fun queued => ?_
    exact always_ite (fun _ => always_pure (published_sendError (by decide)))
      fun _ => always_pure published_sendJson
  · unfold restartService
    cases server.restart with
    | none => exact always_pure published_unavailable
    | some restart => exact always_then fun _ => always_pure published_sendJson
  · unfold applyUpdate
    refine always_then fun result => ?_
    exact always_ite (fun _ => always_pure published_sendJson)
      fun _ => always_pure (published_sendError (by decide))

/-- A body that is not taken in has a published error, or no reply. -/
theorem published_readBody {limit : ℕ}
    (h : readBody gate request path limit query = .error (some reply)) :
    reply.Published path := by
  have hdecided : ∀ {message : String} {status : ℕ} {code : ErrorCode},
      (code, status) ∈ errorCodes → Except.error (some (sendError message status code))
        = (Except.error (some reply) : Except (Option Reply) Body) → reply.Published path := by
    intro message status code hcode heq
    cases heq
    exact published_sendError hcode
  unfold readBody at h
  split at h
  · exact hdecided (by decide) h
  · split at h
    · exact hdecided (by decide) h
    · split at h
      · exact hdecided (by decide) h
      · split at h
        · exact hdecided (by decide) h
        · dsimp only at h
          split at h
          · exact hdecided (by decide) h
          · split at h
            · cases h
            · split at h
              · exact hdecided (by decide) h
              · exact hdecided (by decide) h
              · next schema _ hschema =>
                split at h
                · next error herror =>
                  cases h
                  exact published_validateBody hschema herror
                · cases h

theorem published_doPost : Always (fun answered => ∀ reply ∈ answered,
    Reply.Answers server.toGate request reply) (doPost server request) := by
  unfold doPost Reply.Answers
  cases hsplit : splitRequestTarget server.toGate request with
  | error reply =>
    exact always_pure fun _ h path => by
      cases h
      exact published_splitRequestTarget hsplit
  | ok target =>
    refine always_bind published_requireAuthentication fun refusal hrefusal => ?_
    cases refusal with
    | some refusal =>
      exact always_pure fun _ h => by
        cases h
        exact hrefusal refusal rfl
    | none =>
      dsimp only
      split
      · exact always_pure fun _ h => by cases h; exact published_fallback
      · split
        · next reply hreply =>
          exact always_pure fun _ h => by
            obtain ⟨error, rfl, rfl⟩ := Option.map_eq_some_iff.mp h
            exact published_close.mpr (published_readBody hreply)
        · split
          · exact always_pure fun _ h => by cases h; exact published_fallback
          · next handler hhandler =>
            refine always_bind (published_writeHandlers _ (mem_of_entry hhandler))
              fun reply hreply => always_pure fun _ h => ?_
            cases h
            exact hreply

theorem published_unsupportedMethod :
    Always (Reply.Answers server.toGate request) (unsupportedMethod server request) := by
  unfold unsupportedMethod Reply.Answers
  cases hsplit : splitRequestTarget server.toGate request with
  | error reply => exact always_pure fun path => published_splitRequestTarget hsplit
  | ok target =>
    refine always_bind published_requireAuthentication fun refusal hrefusal => ?_
    cases refusal with
    | some refusal => exact always_pure (hrefusal refusal rfl)
    | none => exact always_pure published_fallback

/-- Every error of a reply has a published code with its published status, and names a query
parameter or a body field of the route, or the unknown name that the query has. It names no field
where the target of the request cannot be split. -/
theorem answer_published (server : Server W) (request : Request) (world : W) :
    ∀ reply ∈ ((answer server request).run world).1, reply.Answers server.toGate request := by
  suffices halways : Always (fun answered => ∀ reply ∈ answered,
      Reply.Answers server.toGate request reply) (answer server request) from halways world
  unfold answer
  cases hparse : parseRequest server.toGate request with
  | some reply =>
    refine always_pure fun _ h => answers_of_published fun path => ?_
    cases h
    unfold parseRequest at hparse
    dsimp only at hparse
    split at hparse
    · cases hparse
      exact published_close.mpr (published_sendError (by decide))
    · cases hparse
  | none =>
    refine always_ite (fun _ => ?_) fun _ => ?_
    · exact always_bind published_respondToReadRequest fun reply hreply =>
        always_pure fun _ h => by cases h; exact hreply
    refine always_ite (fun _ => published_doPost) fun _ => ?_
    refine always_ite (fun _ => always_pure fun _ h => ?_) fun _ => ?_
    · cases h
      exact answers_of_published fun path => published_close.mpr (published_sendError (by decide))
    · exact always_bind published_unsupportedMethod fun reply hreply =>
        always_pure fun _ h => by cases h; exact hreply

end Handlers

/-- A server that monitors nothing. -/
def idleServer : Server Unit where
  toGate := localGate
  renderOpenmetrics := fun _ => none
  describeMeta := fun _ _ _ _ _ => .null
  state :=
    { recordDashboardActivity := pure ()
      snapshotView := pure .null
      health := pure ⟨true, .integer 0, .null⟩
      history := fun _ _ => pure none
      usage := fun _ _ => pure .null
      usageReport := fun _ _ => pure none
      utilizationReport := fun _ _ => pure none
      incidents := fun _ => pure .null
      brief := fun _ => pure .null
      capacity := fun _ _ _ => pure .null
      gpuHistory := fun _ _ _ => pure none
      diagnosticBundle := fun _ => pure none
      activeIncidentStartedAt := fun _ _ => pure none
      testNotifications := pure false
      setPollIntervalSeconds := fun _ => pure ()
      stream := pure () }
  inventory := none
  restart := none
  probeControl := none
  updates := none
  currentVersion := "0.0.0"
  streamSlot := fun _ => false

theorem answer_published_restart :
    (∀ reply ∈ ((answer idleServer restartRequest).run ()).1,
      reply.Published "/api/service/restart")
      ∧ (((answer idleServer restartRequest).run ()).1.map Reply.status) = some 403 :=
  ⟨fun reply hreply => answer_published idleServer restartRequest () reply hreply, by decide⟩

end Mocop.Web
