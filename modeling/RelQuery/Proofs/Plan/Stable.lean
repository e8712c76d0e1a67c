import RelQuery.Proofs.Plan.Expansion
import RelQuery.Proofs.Plan.Request
import RelQuery.Proofs.Session.Failures

/-!
# What holds of every computation in a session

Planning and loading are made of a few kinds of steps: something is announced, the driver is asked,
a computation without a session is done or gives up.  What holds of these steps and of steps in a
row holds of all that is made of them.

* `Session.Planned` is such a property, as far as planning needs it.
* `Session.Stable` is one that loading has as well.  Giving up may be limited to errors of some
  kind.
* **`Session.Planned.expandAll`** — it holds of planning all relations of a select.
* **`Session.Stable.resultSet`** — it holds of finishing a select.
* **`Session.Stable.materializeTo`** — it holds of loading all rows of a result set, if it holds of
  fetching and of every select that is needed on the way.
-/

namespace RelQuery

open Session

variable {σ : Type}

/-! ## Planning -/

/-- A property that steps in a row keep, and that the steps of planning have. -/
structure Session.Planned (ctx : Context σ) (P : ∀ α : Type, Session.Run σ α → Prop) : Prop where
  pure {α : Type} (a : α) : P α (Pure.pure a)
  andThen {α β : Type} {x : Session.Run σ α} {f : α → Session.Run σ β} (hx : P α x)
    (hf : ∀ a, P β (f a)) : P β (x >>= f)
  expanding (aliasName : String) (mode : RelationMode) (parent : String) :
    P Unit (Session.emit (.expanding aliasName mode parent))
  columns (table : String) : P (List String) (ctx.columns table)
  noColumns (table aliasName : String) :
    P (List String) (MonadExcept.throw (.configuration (.noColumns table aliasName)))

namespace Session.Planned

variable {ctx : Context σ} {P : ∀ α : Type, Session.Run σ α → Prop}

lemma plannedColumns (h : Planned ctx P) (withFields : Bool) (link : Link)
    (nested : List Relation) : P (List String) (ctx.plannedColumns withFields link nested) := by
  rw [Context.plannedColumns]
  split
  · have hkeys (columns : List String) : P (List String) (if columns.isEmpty
        then MonadExcept.throw (.configuration (.noColumns link.table link.aliasName))
        else return Plan.withKeys columns nested) := by
      split
      · exact h.noColumns link.table link.aliasName
      · exact h.pure _
    rw [Context.relationColumns]
    split
    · exact h.andThen (h.columns link.table) hkeys
    · exact h.andThen (h.pure link.fields) hkeys
  · exact h.pure _

mutual

lemma expand (h : Planned ctx P) (withFields : Bool) (parentAlias parentTable : String)
    (path : List String) : (relation : Relation) →
    P Plan (relation.expand ctx withFields parentAlias parentTable path)
  | ⟨link, nested⟩ => by
      cases hone : link.mode.isToOne with
      | true =>
          rw [Relation.expand_of_isToOne ctx withFields parentAlias parentTable path nested hone]
          refine h.andThen (h.expanding _ _ _) fun _ =>
            h.andThen (h.plannedColumns withFields link nested) fun columns => ?_
          exact h.andThen (h.expandAll withFields link.aliasName link.table _ nested)
            fun inner => h.pure _
      | false =>
          rw [Relation.expand_of_not_isToOne ctx withFields parentAlias parentTable path nested
            hone]
          exact h.andThen (h.expanding _ _ _) fun _ => h.pure _

/-- **It holds of planning all relations of a select.** -/
theorem expandAll (h : Planned ctx P) (withFields : Bool) (parentAlias parentTable : String)
    (path : List String) : (relations : List Relation) →
    P Plan (Relation.expandAll ctx withFields parentAlias parentTable path relations)
  | [] => by
      rw [Relation.expandAll]
      exact h.pure _
  | relation :: relations => by
      rw [Relation.expandAll]
      exact h.andThen (h.expand withFields parentAlias parentTable path relation) fun plan =>
        h.andThen (h.expandAll withFields parentAlias parentTable path relations)
          fun others => h.pure _

end

/-! Steps without a session may give up as well. -/

variable {statement : Statement}

lemma plan (h : Planned ctx P) (hmain : P TableRef (Session.ofExcept statement.mainTable))
    (withFields : Bool) : P Plan (statement.plan ctx withFields) :=
  h.andThen hmain fun main =>
    h.expandAll withFields main.reference main.name [] statement.relations

lemma prepareSelect (h : Planned ctx P) (hmain : P TableRef (Session.ofExcept statement.mainTable))
    (hquery : ∀ plan, P (Query Slot) (Session.ofExcept (statement.selectQuery plan))) :
    P (Prepared × Plan) (statement.prepareSelect ctx) :=
  h.andThen (h.plan hmain true) fun plan => h.andThen (hquery plan) fun _ => h.pure _

end Session.Planned

/-! ## Steps -/

/-- A property that steps in a row keep, that the steps of planning have, and giving up with an
error that is harmless. -/
structure Session.Stable (ctx : Context σ) (P : ∀ α : Type, Session.Run σ α → Prop)
    (harmless : Error → Prop) : Prop where
  pure {α : Type} (a : α) : P α (Pure.pure a)
  throw {α : Type} {e : Error} (h : harmless e) : P α (MonadExcept.throw e)
  bind {α β : Type} {x : Session.Run σ α} {f : α → Session.Run σ β} {post : α → Prop}
    (hx : P α x) (hpost : Makes x post) (hf : ∀ a, post a → P β (f a)) : P β (x >>= f)
  /-- A change of what was announced and logged. -/
  note (change : Session σ → Session σ)
    (h : ∀ session, (change session).connection = session.connection) : P Unit (modify change)
  columns (table : String) : P (List String) (ctx.columns table)
  noColumns (table aliasName : String) : harmless (.configuration (.noColumns table aliasName))

namespace Session.Stable

variable {ctx : Context σ} {P : ∀ α : Type, Session.Run σ α → Prop} {harmless : Error → Prop}
  {α β : Type}

lemma andThen (h : Stable ctx P harmless) {x : Session.Run σ α} {f : α → Session.Run σ β}
    (hx : P α x) (hf : ∀ a, P β (f a)) : P β (x >>= f) :=
  h.bind hx (Makes.trivial x) fun a _ => hf a

lemma emit (h : Stable ctx P harmless) (event : Event) : P Unit (Session.emit event) :=
  h.note _ fun _ => rfl

lemma ofExcept (h : Stable ctx P harmless) {result : Except Error α}
    (herror : FailsOnly harmless result) : P α (Session.ofExcept result) := by
  cases result with
  | ok a => exact h.pure a
  | error e => exact h.throw (herror e rfl)

lemma written (h : Stable ctx P harmless) {statement : Except Error Statement}
    (herror : FailsOnly harmless statement) : P Statement (Session.written statement) := by
  cases statement with
  | ok statement => exact h.pure statement
  | error e => exact h.andThen (h.emit _) fun _ => h.throw (herror e rfl)

lemma record (h : Stable ctx P harmless) (prepared : Prepared) : P Unit (ctx.record prepared) :=
  h.andThen (h.emit _) fun _ => h.note _ fun _ => rfl

/-! ## Planning -/

lemma planned (h : Stable ctx P harmless) : Planned ctx P where
  pure := h.pure
  andThen := h.andThen
  expanding _ _ _ := h.emit _
  columns := h.columns
  noColumns table aliasName := h.throw (h.noColumns table aliasName)

/-- **It holds of finishing a select** that has a table and can be written. -/
theorem resultSet (h : Stable ctx P harmless) {statement : Statement}
    (hmain : FailsOnly harmless statement.mainTable)
    (hquery : ∀ plan, FailsOnly harmless (statement.selectQuery plan)) :
    P ResultSet (statement.resultSet ctx) := by
  have hselect : P (Prepared × Plan) (statement.prepareSelect ctx) :=
    h.planned.prepareSelect (h.ofExcept hmain) fun plan => h.ofExcept (hquery plan)
  exact h.andThen (h.ofExcept hmain) fun table => h.andThen hselect fun prepared =>
    h.andThen (h.record _) fun _ => h.pure _

/-! ## Loading -/

variable {materialize : ResultSet → Session.Run σ (List Row)}

lemma flatRows (h : Stable ctx P harmless) (result : ResultSet)
    (hfetch : P (List Row) (ctx.fetch result.prepared)) : P (List Row) (result.flatRows ctx) :=
  h.andThen hfetch fun _ => h.pure _

lemma request (h : Stable ctx P harmless) {deferred : Deferred} {keys : List Value}
    (hselect : FailsOnly harmless (deferred.select keys))
    (hquery : ∀ plan, FailsOnly harmless ((deferred.statement keys).selectQuery plan)) :
    P ResultSet (Engine.alone (deferred.request ctx keys)) := by
  have hwritten : Makes (Session.written (deferred.select keys) : Session.Run σ Statement)
      (deferred.statement keys = ·) := fun s statement t hrun =>
    (Deferred.select_eq_ok.mp (run_written_eq_ok.mp hrun).1).2
  rw [Deferred.alone_request]
  refine h.bind (h.written hselect) hwritten ?_
  rintro _ rfl
  exact h.resultSet (.ok _) hquery

/-! Rows may lack a column, so to give up for one has to be harmless from here on. -/

lemma load (h : Stable ctx P harmless) (hmissing : ∀ e : Error, e.IsMissingKey → harmless e)
    {deferred : Deferred} {keys : List Value}
    {post : ResultSet → Prop} (hrequest : P ResultSet (Engine.alone (deferred.request ctx keys)))
    (hpost : Makes (Engine.alone (deferred.request ctx keys)) post)
    (hmaterialize : ∀ result, post result → P (List Row) (materialize result)) :
    P (List (String × Row)) (deferred.load materialize ctx keys) := by
  rw [Deferred.load]
  split
  · exact h.pure []
  · refine h.andThen (h.emit _) fun _ => h.bind hrequest hpost fun result hresult => ?_
    refine h.andThen (hmaterialize result hresult) fun rows => h.ofExcept ?_
    exact (deferred.failsOnly_groups rows).mono fun e he => hmissing e ⟨_, _, he⟩

lemma attachEach (h : Stable ctx P harmless) (hmissing : ∀ e : Error, e.IsMissingKey → harmless e)
    {batches : List (Deferred × List Value)}
    (hload : ∀ batch ∈ batches,
      P (List (String × Row)) (batch.1.load materialize ctx batch.2)) (rows : List Row) :
    P (List Row) (Deferred.attachEach materialize ctx batches rows) := by
  induction batches generalizing rows with
  | nil => exact h.pure rows
  | cons batch batches ih =>
      obtain ⟨hfirst, hrest⟩ := List.forall_mem_cons.mp hload
      refine h.andThen hfirst fun groups => h.andThen (h.ofExcept ?_) fun rows => ih hrest rows
      exact (batch.1.failsOnly_embed groups rows).mono hmissing

lemma attachAll (h : Stable ctx P harmless) (hmissing : ∀ e : Error, e.IsMissingKey → harmless e)
    {deferreds : List Deferred}
    (hload : ∀ deferred ∈ deferreds, ∀ keys,
      P (List (String × Row)) (deferred.load materialize ctx keys)) (rows : List Row) :
    P (List Row) (Deferred.attachAll materialize ctx deferreds rows) := by
  rw [Deferred.attachAll]
  split
  · exact h.pure rows
  · refine h.andThen (h.ofExcept (.mapM fun deferred _ => ?_)) fun batches => ?_
    · exact (deferred.failsOnly_keysFrom [] rows).mono fun e he => hmissing e ⟨_, _, he⟩
    · exact h.attachEach hmissing
        (fun batch hbatch => hload batch.1 (List.of_mem_zip hbatch).1 batch.2) rows

/-- **It holds of loading all rows of a result set**, if it holds of fetching, and of every request
that is made for one of the result sets; `fits` holds of all of them. -/
theorem materializeTo (h : Stable ctx P harmless)
    (hmissing : ∀ e : Error, e.IsMissingKey → harmless e)
    (hfetch : ∀ prepared, P (List Row) (ctx.fetch prepared)) (fits : ResultSet → Prop)
    (hrequest : ∀ result, fits result → ∀ deferred ∈ result.plan.deferred, ∀ keys,
      P ResultSet (Engine.alone (deferred.request ctx keys))
        ∧ Makes (Engine.alone (deferred.request ctx keys)) fits)
    (depth : Nat) {result : ResultSet} (hfits : fits result) :
    P (List Row) (result.materializeTo ctx depth) := by
  induction depth generalizing result with
  | zero => exact h.flatRows result (hfetch _)
  | succ depth ih =>
      refine h.andThen (h.flatRows result (hfetch _)) fun rows => h.attachAll hmissing ?_ rows
      intro deferred hdeferred keys
      obtain ⟨hrun, hmakes⟩ := hrequest result hfits deferred hdeferred keys
      exact h.load hmissing hrun hmakes fun next hnext => ih hnext

end Session.Stable

end RelQuery
