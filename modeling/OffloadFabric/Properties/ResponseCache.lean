import OffloadFabric.Service.Server

/-!
# The response cache

What the server's cache holds over whole sequences of requests and what it answers
(`src/service.cpp:588-636`).
-/

namespace OffloadFabric

open Lib Lib.Fallible

namespace Service

variable {c : FabricConfig} {reports : Reports} {s t : Server} {a : Arrival} {b : Bounds}
  {limit : Nat}

/-! ## What one request does to the cache -/

/-- The cache and its queue stay as they were. -/
structure SameCache (s t : Server) : Prop where
  cache : t.cache = s.cache
  order : t.cacheOrder = s.cacheOrder
  undefined : t.undefined = s.undefined

theorem SameCache.refl (s : Server) : SameCache s s := ⟨rfl, rfl, rfl⟩

theorem SameCache.trans {s t u : Server} (h : SameCache s t) (h' : SameCache t u) :
    SameCache s u :=
  ⟨h'.cache.trans h.cache, h'.order.trans h.order, h'.undefined.trans h.undefined⟩

private theorem onFabric_follows {α : Type} (opcode : Opcode) (faults : List Fault)
    (x : FabricM α) : Follows SameCache (onFabric opcode faults x) s := by
  apply Follows.of_step
  unfold onFabric
  rw [exec_bind, exec_get]
  simp only
  rcases x.exec (s.fabric.facing faults) with ⟨r, fabric⟩
  cases r with
  | error e => exact ⟨rfl, rfl, rfl⟩
  | ok value => exact ⟨rfl, rfl, rfl⟩

private theorem submitted_follows {α : Type} (opcode : Opcode) (reader : Reader α)
    (x : α → FabricM Unit) : Follows SameCache (submitted b a opcode reader x) s := by
  refine Follows.lift_bind fun value _ ↦ ?_
  exact (onFabric_follows opcode a.faults (x value)).bind fun _ _ _ ↦ .pure _

private theorem answered_follows {α : Type} (opcode : Opcode) (reader : Reader α)
    (x : α → FabricM AssignmentRecord) : Follows SameCache (answered b a opcode reader x) s := by
  refine Follows.lift_bind fun value _ ↦ ?_
  exact (onFabric_follows opcode a.faults (x value)).bind fun _ _ _ ↦ .liftExcept _

/-- No branch touches the cache. -/
private theorem perform_follows (opcode : Opcode) :
    Follows SameCache (perform c reports a opcode) s := by
  have hread (opcode : Opcode) : Follows SameCache (do
      let call ← liftExcept (reports.read opcode a.request.payload)
      onFabric opcode a.faults do
        let m ← get
        liftExcept (call m)) s := .lift_bind fun _ _ ↦ onFabric_follows _ _ _
  cases opcode with
  | hello => exact .liftExcept _
  | ping => exact .lift_bind fun _ _ ↦ (onFabric_follows _ _ _).bind fun _ _ _ ↦ .liftExcept _
  | stats => exact hread .stats
  | registerFunction => exact submitted_follows _ _ _
  | ingestTopology => exact submitted_follows _ _ _
  | ingestCapabilities => exact submitted_follows _ _ _
  | ingestPolicy => exact submitted_follows _ _ _
  | ingestObservations => exact submitted_follows _ _ _
  | grantAuthority => exact submitted_follows _ _ _
  | withdrawAuthority => exact submitted_follows _ _ _
  | reportEffect => exact answered_follows _ _ _
  | plan => exact .lift_bind fun _ _ ↦ (onFabric_follows _ _ _).bind fun _ _ _ ↦ .liftExcept _
  | apply => exact answered_follows _ _ _
  | revoke => exact answered_follows _ _ _
  | replace => exact answered_follows _ _ _
  | reauthorize => exact answered_follows _ _ _
  | revalidate =>
    exact .lift_bind fun _ _ ↦ .get_bind ((onFabric_follows _ _ _).bind fun _ _ _ ↦ .liftExcept _)
  | getAssignment => exact answered_follows _ _ _
  | listAssignments => exact hread .listAssignments
  | getScope => exact hread .getScope
  | explainAssignment => exact hread .explainAssignment
  | explainRequest => exact hread .explainRequest
  | stateDigest =>
    exact .lift_bind fun _ _ ↦ (onFabric_follows _ _ _).bind fun _ _ _ ↦ .liftExcept _
  | «export» => exact hread .export
  | recoveryReport => exact hread .recoveryReport
  | verifyInvariants => exact hread .verifyInvariants
  | compact => exact submitted_follows _ _ _
  | shutdown => exact .lift_bind fun _ _ ↦ .pure _

theorem perform_sameCache (opcode : Opcode) :
    SameCache s ((perform c reports a opcode).exec s).2 :=
  (perform_follows opcode).rel SameCache.refl fun _ _ _ ↦ SameCache.trans

/-- The request is of an opcode whose success is cached. -/
def Cacheable (request : Frame) : Prop :=
  ∃ opcode, Opcode.ofCode? request.opcode = some opcode ∧ opcode.remembered = true

/-- What handling a request comes to, as far as the cache goes. -/
inductive Handled (b : Bounds) (s : Server) (request : Frame) :
    Except Error Frame → Server → Prop
  | recalled (entry : CachedResponse) (hid : request.requestId ≠ 0)
      (hentry : s.cache[request.requestId]? = some entry)
      (hdigest : entry.requestDigest = requestDigest request) :
      Handled b s request (.ok { request with flags := entry.flags, payload := entry.payload }) s
  | reused (entry : CachedResponse) (hid : request.requestId ≠ 0)
      (hentry : s.cache[request.requestId]? = some entry)
      (hdigest : entry.requestDigest ≠ requestDigest request) :
      Handled b s request (.error reusedIdentifier) s
  | passed {t : Server} {r : Except Error Frame} (hsame : SameCache s t)
      (hmiss : request.requestId = 0 ∨ s.cache[request.requestId]? = none)
      (hnot : ∀ response, r = .ok response → request.requestId = 0 ∨ ¬ Cacheable request) :
      Handled b s request r t
  | stored {t : Server} (payload : Bytes) (hsame : SameCache s t) (hid : request.requestId ≠ 0)
      (hmiss : s.cache[request.requestId]? = none) (hcacheable : Cacheable request) :
      Handled b s request (.ok { request with flags := 0, payload })
        ((remember b request payload 0).exec t).2

/-- The rest of a request that the cache does not answer. -/
private theorem handled_of_miss
    (hmiss : a.request.requestId = 0 ∨ s.cache[a.request.requestId]? = none) :
    let x : ServerM Frame := match Opcode.ofCode? a.request.opcode with
      | none => throw ⟨.unsupportedOpcode, "opcode is not implemented"⟩
      | some opcode => do
        let payload ← perform c reports a opcode
        if opcode.remembered then remember c.bounds a.request payload 0
        return { a.request with flags := 0, payload }
    Handled c.bounds s a.request (x.exec s).1 (x.exec s).2 := by
  cases hopcode : Opcode.ofCode? a.request.opcode with
  | none => exact .passed (.refl s) hmiss fun _ h ↦ by cases h
  | some opcode =>
    have hsame := @perform_sameCache c reports s a opcode
    simp only [exec_bind]
    cases hperform : (perform c reports a opcode).exec s with
    | mk r t =>
      rw [hperform] at hsame
      cases r with
      | error e => exact .passed hsame hmiss fun _ h ↦ by cases h
      | ok payload =>
        have hcacheable : Cacheable a.request ↔ opcode.remembered = true := by
          simp only [Cacheable, hopcode, Option.some.injEq, exists_eq_left']
        cases hremembered : opcode.remembered with
        | false =>
          refine .passed hsame hmiss fun _ _ ↦ .inr ?_
          rw [hcacheable, hremembered]
          decide
        | true =>
          simp only [if_true, exec_bind]
          by_cases hid : a.request.requestId = 0
          · have hskip : (remember c.bounds a.request payload 0).exec t = (.ok (), t) := by
              rw [remember, if_pos hid]
              rfl
            rw [hskip]
            exact .passed hsame hmiss fun _ _ ↦ .inl hid
          · have hstore : (remember c.bounds a.request payload 0).exec t =
                (.ok (), ((remember c.bounds a.request payload 0).exec t).2) := by
              rw [remember, if_neg hid]
              rfl
            rw [hstore]
            exact .stored payload hsame hid (hmiss.resolve_left hid) (hcacheable.mpr hremembered)

/-- **Every request is handled in one of these ways.** -/
theorem handled (c : FabricConfig) (reports : Reports) (s : Server) (a : Arrival) :
    Handled c.bounds s a.request ((handleRequest c reports a).exec s).1
      (serve c reports s a) := by
  have hmissed := @handled_of_miss c reports s a
  unfold serve handleRequest cachedResponse
  simp only [exec_bind, exec_get]
  by_cases hid : a.request.requestId = 0
  · rw [if_pos hid]
    exact hmissed (.inl hid)
  · rw [if_neg hid]
    cases hentry : s.cache[a.request.requestId]? with
    | none => exact hmissed (.inr hentry)
    | some entry =>
      simp only
      by_cases hdigest : entry.requestDigest = requestDigest a.request
      · rw [if_pos hdigest]
        exact .recalled entry hid hentry hdigest
      · rw [if_neg hdigest]
        exact .reused entry hid hentry hdigest

/-! ## The invariant -/

/-- The cache and its queue stand in step within the limit, and no empty queue was read. -/
structure Consistent (limit : Nat) (s : Server) : Prop where
  inStep : Fifo.InStep s.cacheOrder s.cache
  bounded : s.cache.size ≤ limit
  defined : s.undefined = false

theorem Consistent.same (h : Consistent limit s) (hsame : SameCache s t) : Consistent limit t := by
  obtain ⟨hcache, horder, hundefined⟩ := hsame
  exact ⟨hcache ▸ horder ▸ h.inStep, hcache ▸ h.bounded, hundefined ▸ h.defined⟩

/-- What storing a response leaves: the latest identifiers with their responses. -/
structure Stored (limit : Nat) (s : Server) (id : UInt64) (entry : CachedResponse) (t : Server) :
    Prop where
  consistent : Consistent limit t
  order : t.cacheOrder = Fifo.latest limit (s.cacheOrder ++ [id])
  entries : ∀ k ∈ t.cache, t.cache[k]? = if k = id then some entry else s.cache[k]?

theorem stored_remember (h : Consistent b.maxIdempotencyEntries.toNat s) {request : Frame}
    (hid : request.requestId ≠ 0) (hmiss : s.cache[request.requestId]? = none) (payload : Bytes)
    (flags : UInt16) :
    Stored b.maxIdempotencyEntries.toNat s request.requestId
      ⟨requestDigest request, payload, flags⟩ ((remember b request payload flags).exec s).2 := by
  have hnew : request.requestId ∉ s.cache := by
    rwa [Std.ExtTreeMap.mem_iff_isSome_getElem?, Option.not_isSome_iff_eq_none]
  have hpush := h.inStep.push ⟨requestDigest request, payload, flags⟩ hnew
  obtain ⟨kept, hevict, hkept, hsize, hsame⟩ := hpush.evict b.maxIdempotencyEntries.toNat
  have hexec : ((remember b request payload flags).exec s).2 =
      { s with
        cache := kept
        cacheOrder := Fifo.latest b.maxIdempotencyEntries.toNat
          (s.cacheOrder ++ [request.requestId]) } := by
    rw [remember, if_neg hid, exec_modify]
    simp only [hevict]
  rw [hexec]
  refine ⟨⟨hkept, hsize, h.defined⟩, rfl, fun k hk ↦ ?_⟩
  rw [hsame k ((hkept.mem k).mpr hk), Std.ExtTreeMap.getElem?_insert]
  by_cases hk' : k = request.requestId
  · rw [if_pos hk', hk', if_pos Std.ReflCmp.compare_self]
  · rw [if_neg hk', if_neg fun heq ↦ hk' (Std.LawfulEqCmp.compare_eq_iff_eq.mp heq).symm]

theorem Stored.of_same {u : Server} {id : UInt64} {entry : CachedResponse} (hsame : SameCache s t)
    (h : Stored limit t id entry u) : Stored limit s id entry u := by
  obtain ⟨hcache, horder, -⟩ := hsame
  exact ⟨h.consistent, horder ▸ h.order, hcache ▸ h.entries⟩

/-- **One request keeps the invariant.** -/
theorem Consistent.serve (h : Consistent c.bounds.maxIdempotencyEntries.toNat s) :
    Consistent c.bounds.maxIdempotencyEntries.toNat (serve c reports s a) := by
  have hhandled := handled c reports s a
  generalize ((handleRequest c reports a).exec s).1 = r at hhandled
  generalize Service.serve c reports s a = t at hhandled ⊢
  cases hhandled with
  | recalled => exact h
  | reused => exact h
  | passed hsame => exact h.same hsame
  | stored payload hsame hid hmiss =>
    exact (stored_remember (h.same hsame) hid (hsame.cache ▸ hmiss) payload 0).consistent

theorem Consistent.serveAll (h : Consistent c.bounds.maxIdempotencyEntries.toNat s)
    (arrivals : List Arrival) :
    Consistent c.bounds.maxIdempotencyEntries.toNat (serveAll c reports s arrivals) := by
  induction arrivals generalizing s with
  | nil => exact h
  | cons a arrivals ih => exact ih h.serve

/-! ## What is in the cache -/

/-- The identifier that a request stores a response under: that of a successful cacheable request
which the cache did not answer. -/
def storedId (c : FabricConfig) (reports : Reports) (s : Server) (a : Arrival) : List UInt64 :=
  match ((handleRequest c reports a).exec s).1, Opcode.ofCode? a.request.opcode with
  | .ok _, some opcode =>
    if a.request.requestId ≠ 0 ∧ s.cache[a.request.requestId]? = none ∧ opcode.remembered = true
    then [a.request.requestId] else []
  | _, _ => []

/-- The identifiers that requests store responses under, in order. -/
def storedIds (c : FabricConfig) (reports : Reports) : Server → List Arrival → List UInt64
  | _, [] => []
  | s, a :: arrivals => storedId c reports s a ++ storedIds c reports (serve c reports s a) arrivals

private theorem storedId_eq_nil
    (h : a.request.requestId = 0 ∨ s.cache[a.request.requestId]? ≠ none ∨
      (∀ response, ((handleRequest c reports a).exec s).1 = .ok response →
        ¬ Cacheable a.request)) : storedId c reports s a = [] := by
  unfold storedId
  split
  · next response opcode hok hopcode =>
    rw [if_neg]
    rintro ⟨hid, hmiss, hremembered⟩
    rcases h with h | h | h
    · exact hid h
    · exact h hmiss
    · exact h response hok ⟨opcode, hopcode, hremembered⟩
  · rfl

private theorem storedId_eq {response : Frame}
    (hok : ((handleRequest c reports a).exec s).1 = .ok response) (hid : a.request.requestId ≠ 0)
    (hmiss : s.cache[a.request.requestId]? = none) (hcacheable : Cacheable a.request) :
    storedId c reports s a = [a.request.requestId] := by
  obtain ⟨opcode, hopcode, hremembered⟩ := hcacheable
  unfold storedId
  rw [hok, hopcode]
  exact if_pos ⟨hid, hmiss, hremembered⟩

/-- One request moves the queue by the identifier it stores. -/
theorem order_serve (h : Consistent c.bounds.maxIdempotencyEntries.toNat s) :
    (serve c reports s a).cacheOrder =
      Fifo.latest c.bounds.maxIdempotencyEntries.toNat
        (s.cacheOrder ++ storedId c reports s a) := by
  have hall : Fifo.latest c.bounds.maxIdempotencyEntries.toNat s.cacheOrder = s.cacheOrder := by
    have hle := h.bounded
    rw [h.inStep.size] at hle
    rw [Fifo.latest, Nat.sub_eq_zero_of_le hle, List.drop_zero]
  have hhandled := handled c reports s a
  have hnil := @storedId_eq_nil c reports s a
  have hone := @storedId_eq c reports s a
  generalize ((handleRequest c reports a).exec s).1 = r at hhandled hnil hone
  generalize serve c reports s a = t at hhandled ⊢
  cases hhandled with
  | recalled entry hid hentry =>
    rw [hnil (.inr (.inl (by rw [hentry]; simp))), List.append_nil, hall]
  | reused entry hid hentry =>
    rw [hnil (.inr (.inl (by rw [hentry]; simp))), List.append_nil, hall]
  | passed hsame hmiss hnot =>
    have hstored : storedId c reports s a = [] := by
      by_cases hid : a.request.requestId = 0
      · exact hnil (.inl hid)
      · exact hnil (.inr (.inr fun response hok ↦ (hnot response hok).resolve_left hid))
    rw [hstored, List.append_nil, hall, hsame.order]
  | stored payload hsame hid hmiss hcacheable =>
    rw [hone rfl hid hmiss hcacheable]
    exact ((stored_remember (h.same hsame) hid (hsame.cache ▸ hmiss) payload 0).of_same hsame).order

/-- **The queue holds the latest stored identifiers in the order they were stored.** -/
theorem order_serveAll (h : Consistent c.bounds.maxIdempotencyEntries.toNat s)
    (arrivals : List Arrival) :
    (serveAll c reports s arrivals).cacheOrder =
      Fifo.latest c.bounds.maxIdempotencyEntries.toNat
        (s.cacheOrder ++ storedIds c reports s arrivals) := by
  induction arrivals generalizing s with
  | nil =>
    have hle := h.bounded
    rw [h.inStep.size] at hle
    rw [storedIds, List.append_nil, Fifo.latest, Nat.sub_eq_zero_of_le hle, List.drop_zero]
    rfl
  | cons a arrivals ih =>
    change (serveAll c reports (serve c reports s a) arrivals).cacheOrder = _
    rw [ih h.serve, order_serve h, storedIds, ← List.append_assoc, Fifo.latest_append]

/-- The response in the cache under the identifier of a request that just succeeded is its own. -/
theorem entry_of_ok (h : Consistent c.bounds.maxIdempotencyEntries.toNat s) {response : Frame}
    (hok : ((handleRequest c reports a).exec s).1 = .ok response) (hid : a.request.requestId ≠ 0)
    (hcached : a.request.requestId ∈ (serve c reports s a).cache) :
    ∃ payload flags, response = { a.request with flags, payload } ∧
      (serve c reports s a).cache[a.request.requestId]? =
        some ⟨requestDigest a.request, payload, flags⟩ := by
  have hhandled := handled c reports s a
  rw [hok] at hhandled
  generalize serve c reports s a = t at hhandled hcached ⊢
  cases hhandled with
  | recalled entry hid hentry hdigest =>
    refine ⟨entry.payload, entry.flags, rfl, ?_⟩
    rw [hentry, ← hdigest]
  | passed hsame hmiss =>
    rw [hsame.cache, Std.ExtTreeMap.mem_iff_isSome_getElem?, hmiss.resolve_left hid] at hcached
    cases hcached
  | stored payload hsame _ hmiss =>
    have hstored :=
      (stored_remember (h.same hsame) hid (hsame.cache ▸ hmiss) payload 0).of_same hsame
    refine ⟨payload, 0, rfl, ?_⟩
    rw [hstored.entries _ hcached, if_pos rfl]

/-- A response that stays in the cache stays as it is. -/
theorem entry_serve (h : Consistent c.bounds.maxIdempotencyEntries.toNat s) {id : UInt64}
    {entry : CachedResponse} (hentry : s.cache[id]? = some entry)
    (hcached : id ∈ (serve c reports s a).cache) :
    (serve c reports s a).cache[id]? = some entry := by
  have hhandled := handled c reports s a
  generalize ((handleRequest c reports a).exec s).1 = r at hhandled
  generalize serve c reports s a = t at hhandled hcached ⊢
  cases hhandled with
  | recalled => exact hentry
  | reused => exact hentry
  | passed hsame => rwa [hsame.cache]
  | stored payload hsame hid hmiss =>
    have hstored :=
      (stored_remember (h.same hsame) hid (hsame.cache ▸ hmiss) payload 0).of_same hsame
    have hne : id ≠ a.request.requestId := by
      rintro rfl
      rw [hmiss] at hentry
      cases hentry
    rw [hstored.entries _ hcached, if_neg hne, hentry]

/-- The identifier is in the cache before and behind each of the requests. -/
def Retained (c : FabricConfig) (reports : Reports) (s : Server) (arrivals : List Arrival)
    (id : UInt64) : Prop :=
  ∀ front, front <+: arrivals → id ∈ (serveAll c reports s front).cache

theorem entry_serveAll (h : Consistent c.bounds.maxIdempotencyEntries.toNat s) {id : UInt64}
    {entry : CachedResponse} {arrivals : List Arrival} (hentry : s.cache[id]? = some entry)
    (hretained : Retained c reports s arrivals id) :
    (serveAll c reports s arrivals).cache[id]? = some entry := by
  induction arrivals generalizing s with
  | nil => exact hentry
  | cons a arrivals ih =>
    have hfirst := hretained [a] (List.prefix_append [a] arrivals)
    refine ih h.serve (entry_serve h hentry hfirst) fun front hfront ↦ ?_
    exact hretained (a :: front) (List.cons_prefix_cons.mpr ⟨rfl, hfront⟩)

/-! ## At most once -/

/-- No two of the requests differ and have one SHA-256 digest. -/
def CollisionFree (requests : List Frame) : Prop :=
  ∀ r ∈ requests, ∀ r' ∈ requests,
    requestDigest r = requestDigest r' → digestInput r = digestInput r'

instance (requests : List Frame) : Decidable (CollisionFree requests) :=
  inferInstanceAs (Decidable (∀ r ∈ requests, ∀ r' ∈ requests, _))

/-- What a digest is taken over tells opcode and payload apart. -/
theorem digestInput_inj {r r' : Frame} (h : digestInput r = digestInput r') :
    r.opcode = r'.opcode ∧ r.payload = r'.payload := by
  obtain ⟨hopcode, hpayload⟩ := List.append_inj h (by simp)
  have hnumber := congrArg ofLe hopcode
  have hlt : r.opcode.toNat < 256 ^ 2 := r.opcode.toNat_lt
  have hlt' : r'.opcode.toNat < 256 ^ 2 := r'.opcode.toNat_lt
  rw [ofLe_le, ofLe_le, Nat.mod_eq_of_lt hlt, Nat.mod_eq_of_lt hlt'] at hnumber
  exact ⟨UInt16.toNat_inj.mp hnumber, hpayload⟩

/-- The server behind a sequence of requests: its cache holds no more than its bound, its queue
lists the identifiers in the cache once each in the order they were stored, no empty queue was
read, and a request whose identifier was answered and stayed in the cache since is answered again
without a change to the server or a call to the runtime if it is the same request, and refused if
it is another. -/
structure AtMostOnce (c : FabricConfig) (reports : Reports) (s : Server)
    (arrivals : List Arrival) : Prop where
  bounded : (serveAll c reports s arrivals).cache.size ≤ c.bounds.maxIdempotencyEntries.toNat
  nodup : (serveAll c reports s arrivals).cacheOrder.Nodup
  queued : ∀ id, id ∈ (serveAll c reports s arrivals).cacheOrder ↔
    id ∈ (serveAll c reports s arrivals).cache
  ordered : (serveAll c reports s arrivals).cacheOrder =
    Fifo.latest c.bounds.maxIdempotencyEntries.toNat (storedIds c reports s arrivals)
  defined : (serveAll c reports s arrivals).undefined = false
  replayed : ∀ before first between again response,
    arrivals = before ++ first :: between ++ [again] →
    ((handleRequest c reports first).exec (serveAll c reports s before)).1 = .ok response →
    first.request.requestId ≠ 0 →
    Retained c reports (serveAll c reports s (before ++ [first])) between
      first.request.requestId →
    again.request.requestId = first.request.requestId →
    again.request.opcode = first.request.opcode → again.request.payload = first.request.payload →
    (handleRequest c reports again).exec (serveAll c reports s (before ++ first :: between)) =
      (.ok { again.request with flags := response.flags, payload := response.payload },
        serveAll c reports s (before ++ first :: between))
  refused : ∀ before first between again response,
    arrivals = before ++ first :: between ++ [again] →
    ((handleRequest c reports first).exec (serveAll c reports s before)).1 = .ok response →
    first.request.requestId ≠ 0 →
    Retained c reports (serveAll c reports s (before ++ [first])) between
      first.request.requestId →
    again.request.requestId = first.request.requestId →
    again.request.opcode ≠ first.request.opcode ∨
      again.request.payload ≠ first.request.payload →
    (handleRequest c reports again).exec (serveAll c reports s (before ++ first :: between)) =
      (.error reusedIdentifier, serveAll c reports s (before ++ first :: between))

private theorem serveAll_append (front arrivals : List Arrival) :
    serveAll c reports s (front ++ arrivals) =
      serveAll c reports (serveAll c reports s front) arrivals :=
  List.foldl_append

/-- What the cache holds of a request that stayed in it. -/
private theorem entry_between {before between : List Arrival} {first : Arrival} {response : Frame}
    (h : Consistent c.bounds.maxIdempotencyEntries.toNat s)
    (hok : ((handleRequest c reports first).exec (serveAll c reports s before)).1 = .ok response)
    (hid : first.request.requestId ≠ 0)
    (hretained : Retained c reports (serveAll c reports s (before ++ [first])) between
      first.request.requestId) :
    (serveAll c reports s (before ++ first :: between)).cache[first.request.requestId]? =
      some ⟨requestDigest first.request, response.payload, response.flags⟩ := by
  have hbefore : Consistent c.bounds.maxIdempotencyEntries.toNat (serveAll c reports s before) :=
    h.serveAll before
  have hstep : serveAll c reports s (before ++ [first]) =
      serve c reports (serveAll c reports s before) first := by
    rw [serveAll_append]
    rfl
  rw [hstep] at hretained
  obtain ⟨payload, flags, rfl, hentry⟩ :=
    entry_of_ok hbefore hok hid (hretained [] List.nil_prefix)
  rw [serveAll_append]
  exact entry_serveAll hbefore.serve hentry hretained

/-- An identifier in the cache decides the answer. -/
private theorem exec_cached {entry : CachedResponse} (hid : a.request.requestId ≠ 0)
    (hentry : s.cache[a.request.requestId]? = some entry) :
    (handleRequest c reports a).exec s =
      (if entry.requestDigest = requestDigest a.request then
          .ok { a.request with flags := entry.flags, payload := entry.payload }
        else .error reusedIdentifier, s) := by
  unfold handleRequest cachedResponse
  simp only [exec_bind, exec_get, if_neg hid, hentry]
  by_cases hdigest : entry.requestDigest = requestDigest a.request
  · simp only [if_pos hdigest, exec_pure]
  · simp only [if_neg hdigest, exec_throw]

/-- **The response cache answers at most once**, over every sequence of requests to a new server
among which SHA-256 has no collision. -/
theorem atMostOnce (fabric : Impl) (arrivals : List Arrival)
    (hfree : CollisionFree (arrivals.map Arrival.request)) :
    AtMostOnce c reports { fabric } arrivals := by
  have hnew : Consistent c.bounds.maxIdempotencyEntries.toNat { fabric } :=
    ⟨.empty, Nat.zero_le _, rfl⟩
  have hend : Consistent c.bounds.maxIdempotencyEntries.toNat
      (serveAll c reports { fabric } arrivals) :=
    hnew.serveAll arrivals
  refine ⟨hend.bounded, hend.inStep.nodup, hend.inStep.mem, order_serveAll hnew arrivals,
    hend.defined, ?_, ?_⟩
  · intro before first between again response _ hok hid hretained hsame hopcode hpayload
    have hentry := entry_between hnew hok hid hretained
    have hdigest : requestDigest first.request = requestDigest again.request := by
      rw [requestDigest, requestDigest, digestInput, digestInput, hopcode, hpayload]
    rw [← hsame] at hid hentry
    rw [exec_cached hid hentry, if_pos hdigest]
  · intro before first between again response harrivals hok hid hretained hsame hother
    have hentry := entry_between hnew hok hid hretained
    have hdigest : requestDigest first.request ≠ requestDigest again.request := by
      intro heq
      have hinput := hfree first.request (by simp [harrivals]) again.request (by simp [harrivals])
        heq
      obtain ⟨hopcode, hpayload⟩ := digestInput_inj hinput
      exact hother.elim (· hopcode.symm) (· hpayload.symm)
    rw [← hsame] at hid hentry
    rw [exec_cached hid hentry, if_neg hdigest]

/-! ## A repeated registration -/

/-- The registration of a function under request 7. -/
private def registration : Arrival where
  request := {
    opcode := Opcode.registerFunction.code
    requestId := 7
    payload := le 4 1 ++ ascii "f" ++ le 2 FunctionClass.routeLookup.code.toNat ++
      List.replicate 12 0 ++ [1] }
  now := fun _ ↦ 5

/-- Another request under its identifier. -/
private def reusing : Arrival where
  request := { opcode := Opcode.ping.code, requestId := 7 }
  now := fun _ ↦ 6

private def noReports : Reports where
  read _ _ := .error ⟨.unsupportedOperation, ""⟩
  revalidation _ _ := .error ⟨.unsupportedOperation, ""⟩

/-- The registration, its repetition and the other request. -/
theorem registration_answered_at_most_once :
    AtMostOnce { hasStore := false } noReports { fabric := { running := true } }
      [registration, registration, reusing] :=
  atMostOnce { running := true } [registration, registration, reusing] (by decide +kernel)

/-- The runtime registers the function once. -/
example : (serveAll { hasStore := false } noReports { fabric := { running := true } }
    [registration, registration, reusing]).calls = [.registerFunction] := by
  decide +kernel

end Service

end OffloadFabric
