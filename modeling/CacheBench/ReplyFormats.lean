import CacheBench.ServerReplies

namespace CacheBench

open Execution

/-!
# The arrays `sprintf` writes to

`server.c` formats text in three arrays on the stack: the answer to a get that
hits, the error of a delete that fails, and the message `cache_reply` sends.
For the first the array's size comes from the size `cache_get` reports and the
text from the string in slab memory; the assertion in `cache_get` keeps the two
together.
-/

/-- A text that is formatted, and the size of the array it is written to. -/
structure Format where
  text : List UInt8
  room : Nat

/-- The array has room for the text and its terminator. -/
def Format.Fits (format : Format) : Prop :=
  format.text.length + 1 ≤ format.room

/-- `msg` of `cache_reply`. -/
def cacheReplyFormat
    (cache : Option Cache)
    (head body : List UInt8) :
    Format where
  text := replyText head body (spaceUsed cache)
  room := head.length + body.length + 256

/-- `msg` of `take_get_request`, if it gets that far. -/
def takeGetRequestFormats (server : Server) (req : Request) :
    List Format :=
  match
    onCache server.globalCache { address := none, size := 0 }
      fun cache => cacheGet cache req.key with
  | .ok ({ address := some address, size := size }, some cache) =>
      match cache.slabManager.strlen address with
      | .ok length =>
          [{ text :=
              getBody req.key.bytes
                (bytesFrom cache.slabManager.byteAt address length)
             room :=
              req.size / 2 ^ 32 * 2 ^ 32 + size + req.key.length + 32 }]
      | .error _ => []
  | _ => []

/-- `err` of `handle_request`, if the delete fails. -/
def deleteFormats (server : Server) (req : Request) : List Format :=
  match
    onCache server.globalCache 255
      fun cache => cacheDelete cache req.key with
  | .ok (failure, _) =>
      if failure = 0 then
        []
      else
        [{ text := deleteError req.key
           room := req.key.length + 64 }]
  | .error _ => []

/-- What `handle_request` formats before it calls `cache_reply`. -/
def handleRequestFormats (server : Server) (req : Request) : List Format :=
  match req.requestType with
  | .get => takeGetRequestFormats server req
  | .delete => deleteFormats server req
  | _ => []

section Fits

variable (server : Server) (req : Request)

/-- A reply fits, however many digits the space in use takes. -/
theorem cacheReplyFormat_fits
    (cache : Option Cache)
    (head body : List UInt8) :
    (cacheReplyFormat cache head body).Fits := by
  have digits := length_decimal_le (spaceUsed cache)
  rw [Format.Fits, cacheReplyFormat, length_replyText]
  dsimp only
  omega

/-- The answer to a get fits, since the string has the length reported. -/
theorem takeGetRequestFormats_fit :
    ∀ format ∈ takeGetRequestFormats server req, format.Fits := by
  intro format member
  unfold takeGetRequestFormats at member
  split at member
  · rename_i address size cache called
    split at member
    · rename_i length measured
      rw [List.mem_singleton] at member
      subst format
      rcases onCache_cases called with
          ⟨-, impossible, -⟩ | ⟨old, new, -, returned, isNew⟩
      · cases impossible
      · cases isNew
        obtain ⟨reported, again, matching⟩ := strlen_of_cacheGet returned
        rw [measured, Except.ok.injEq] at again
        subst reported
        rw [Format.Fits, length_getBody, length_bytesFrom]
        dsimp only [CString.length]
        omega
    · cases member
  · cases member

/-- The error of a delete fits. -/
theorem deleteFormats_fit :
    ∀ format ∈ deleteFormats server req, format.Fits := by
  intro format member
  unfold deleteFormats at member
  split at member
  · split at member
    · cases member
    · rw [List.mem_singleton] at member
      subst format
      rw [Format.Fits, length_deleteError]
      dsimp only
      omega
  · cases member

/--
Nothing the server formats overruns its array, in any state and for any
request: neither what `handle_request` formats itself nor any reply.
-/
theorem formats_fit :
    (∀ format ∈ handleRequestFormats server req, format.Fits) ∧
      ∀ cache head body, (cacheReplyFormat cache head body).Fits := by
  refine ⟨?_, cacheReplyFormat_fits⟩
  intro format member
  unfold handleRequestFormats at member
  split at member
  · exact takeGetRequestFormats_fit server req format member
  · exact deleteFormats_fit server req format member
  · cases member

end Fits

/-- The answer to a get of the only key. -/
theorem formats_fit_get :
    ∃ (server : Server) (req : Request) (format : Format),
      handleRequestFormats server req = [format] ∧ format.Fits := by
  obtain ⟨history, cache, -, -, seen⟩ :=
    exists_run (by
      decide +kernel :
      returnsSuch
        ((createCache zeroBlocks 0 none).performAll
          [.set (CString.ofText "a") (bytesAt []) 1])
        (fun result =>
          (handleRequestFormats
            { Server.start (fun _ => zeroBlocks) 0 with
              globalCache := some result.2 }
            { requestType := .get
              key := CString.ofText "a"
              value := 0
              size := 1 }).length == 1) = true)
  rw [beq_iff_eq] at seen
  obtain ⟨format, oneFormat⟩ := List.length_eq_one_iff.mp seen
  have fits {server : Server} {req : Request}
      (oneFormat : handleRequestFormats server req = [format]) :
      format.Fits :=
    (formats_fit server req).1 format (by simp [oneFormat])
  exact ⟨_, _, format, oneFormat, fits oneFormat⟩

/-! ## Faults of the server -/

section Faults

variable {server : Server} {locals : Locals} {req : Request} {fault : Fault}

/-- A cache function faults only on a cache. -/
private theorem onCache_fault
    {α : Type}
    {cache : Option Cache}
    {null : α}
    {call : Cache → Outcome (α × Cache)}
    (failed : onCache cache null call = .error fault) :
    ∃ old, cache = some old ∧ call old = .error fault := by
  cases cache with
  | none =>
      cases failed
  | some old =>
      rcases bind_eq_error.mp failed with inCall | ⟨result, -, impossible⟩
      · exact ⟨old, rfl, inCall⟩
      · cases impossible

/-- A get that faults does so in `cache_get`. -/
private theorem takeGetRequest_fault
    (failed : takeGetRequest server locals req = .error fault) :
    ∃ cache,
      server.globalCache = some cache ∧
        cacheGet cache req.key = .error fault := by
  rcases bind_eq_error.mp failed with
      inCall | ⟨⟨⟨address, size⟩, cache⟩, called, rest⟩
  · exact onCache_fault inCall
  · dsimp only at rest
    split at rest
    · rename_i position next
      rcases onCache_cases called with
          ⟨-, impossible, -⟩ | ⟨old, new, -, returned, isNew⟩
      · cases impossible
      · cases isNew
        obtain ⟨length, measured, -⟩ := strlen_of_cacheGet returned
        have fits :=
          takeGetRequestFormats_fit server req
            { text :=
                getBody req.key.bytes
                  (bytesFrom next.slabManager.byteAt position length)
              room :=
                req.size / 2 ^ 32 * 2 ^ 32 + size + req.key.length + 32 }
            (by simp [takeGetRequestFormats, called, measured])
        rw [Format.Fits, Nat.succ_le_iff] at fits
        simp only [measured, bind, Except.bind, fits, ↓reduceIte,
          Server.reply_eq_ok] at rest
        cases rest
    · rw [Server.reply_eq_ok] at rest
      cases rest

/-- A delete that faults does so in `cache_delete`. -/
private theorem delete_fault
    {buf : List UInt8}
    (isDelete : req.requestType = .delete)
    (failed : handleRequest server locals buf req = .error fault) :
    ∃ cache,
      server.globalCache = some cache ∧
        cacheDelete cache req.key = .error fault := by
  simp only [handleRequest, isDelete] at failed
  rcases bind_eq_error.mp failed with
      inCall | ⟨⟨failure, cache⟩, called, rest⟩
  · exact onCache_fault inCall
  · dsimp only at rest
    split at rest
    · rw [Server.reply_eq_ok] at rest
      cases rest
    · rename_i isError
      have fits :=
        deleteFormats_fit server req
          { text := deleteError req.key, room := req.key.length + 64 }
          (by simp [deleteFormats, called, isError])
      rw [Format.Fits, Nat.succ_le_iff] at fits
      dsimp only at fits
      simp only [fits, ↓reduceIte, Server.reply_eq_ok] at rest
      cases rest

/-- A put that faults does so in `cache_set`. -/
private theorem put_fault
    {buf : List UInt8}
    (isPut : req.requestType = .put)
    (failed : handleRequest server locals buf req = .error fault) :
    ∃ cache,
      server.globalCache = some cache ∧
        cacheSet cache req.key
            (fun position => bytesAt buf (req.value + position))
            (UInt32.ofNat req.size) =
          .error fault := by
  simp only [handleRequest, isPut] at failed
  rcases bind_eq_error.mp failed with inCall | ⟨result, -, rest⟩
  · exact onCache_fault inCall
  · simp only [Server.reply_eq_ok] at rest
    split at rest <;> cases rest

/--
`handle_request` faults only inside the cache function it calls.  None of the
texts it formats is the cause.
-/
theorem handleRequest_fault
    {buf : List UInt8}
    (failed : handleRequest server locals buf req = .error fault) :
    ∃ cache,
      server.globalCache = some cache ∧
        (cacheGet cache req.key = .error fault ∨
          cacheDelete cache req.key = .error fault ∨
          cacheSet cache req.key
              (fun position => bytesAt buf (req.value + position))
              (UInt32.ofNat req.size) =
            .error fault) := by
  cases isType : req.requestType with
  | post =>
      simp only [handleRequest, isType, handlePost_eq, Server.reply_eq_ok]
        at failed
      split_ifs at failed
      cases failed
  | delete =>
      obtain ⟨cache, isCache, inDelete⟩ := delete_fault isType failed
      exact ⟨cache, isCache, Or.inr (Or.inl inDelete)⟩
  | get =>
      simp only [handleRequest, isType] at failed
      obtain ⟨cache, isCache, inGet⟩ := takeGetRequest_fault failed
      exact ⟨cache, isCache, Or.inl inGet⟩
  | put =>
      obtain ⟨cache, isCache, inSet⟩ := put_fault isType failed
      exact ⟨cache, isCache, Or.inr (Or.inr inSet)⟩
  | head =>
      simp only [handleRequest, isType, Server.reply_eq_ok] at failed
      cases failed
  | bad =>
      simp only [handleRequest, isType, Server.reply_eq_ok] at failed
      cases failed

end Faults

end CacheBench
