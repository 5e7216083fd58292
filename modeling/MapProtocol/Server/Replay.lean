import MapProtocol.Server.Auth

/-!
# Signed requests over time

What a sequence of arrivals gets accepted. The check of a signed request neither reads nor writes
the nonce cache, so an arrival is judged as if it were the first: a signed request is accepted each
time it arrives while its timestamp is fresh.
-/

namespace MapProtocol

/-- A request as it arrives, and the key ids that are revoked then. -/
structure Arrival where
  now           : Int
  request       : IncomingMessage
  rawBody       : String
  revokedKeyIds : List String

namespace ServerEnv

variable (env : ServerEnv)

def accepted : NonceCache → List Arrival → List SignedRequest
  | _, []                => []
  | nonces, a :: arrivals =>
      match env.getSignedRequestError nonces a.now a.request a.rawBody a.revokedKeyIds with
      | (.ok none, nonces) =>
          (env.signedRequest a.request a.rawBody).toList ++ accepted nonces arrivals
      | (_, nonces)        => accepted nonces arrivals

/-- The authentic signed request `r` arrives, under a key id that is not revoked, while its
timestamp is fresh. -/
structure Presents (a : Arrival) (r : SignedRequest) : Prop where
  carried   : env.signedRequest a.request a.rawBody = some r
  live      : r.payload.keyId ∉ a.revokedKeyIds
  fresh     : env.Fresh a.now r.payload.timestamp
  authentic : env.Authentic r

variable {env}

theorem presents_iff {nonces : NonceCache} {a : Arrival} {r : SignedRequest}
    (hr : env.signedRequest a.request a.rawBody = some r) :
    env.Presents a r ↔
      (env.getSignedRequestError nonces a.now a.request a.rawBody a.revokedKeyIds).1 = .ok none := by
  rw [getSignedRequestError_iff]
  constructor
  · exact fun h => ⟨r, h.carried, h.live, h.fresh, h.authentic⟩
  · rintro ⟨r', hr', hlive, hfresh, hauthentic⟩
    obtain rfl : r = r' := Option.some.inj (hr.symm.trans hr')
    exact ⟨hr, hlive, hfresh, hauthentic⟩

/-- One arrival: it adds what it presents. -/
theorem accepted_cons (nonces : NonceCache) (a : Arrival) (arrivals : List Arrival) :
    (∃ r, env.Presents a r ∧
      env.accepted nonces (a :: arrivals) = r :: env.accepted nonces arrivals) ∨
    (∀ r, ¬ env.Presents a r) ∧
      env.accepted nonces (a :: arrivals) = env.accepted nonces arrivals := by
  have hnonces := @getSignedRequestError_nonces env nonces a.now a.request a.rawBody
    a.revokedKeyIds
  have hpresents (r : SignedRequest) (hr : env.Presents a r) :=
    (@presents_iff env nonces a r hr.carried).mp hr
  rw [accepted]
  split
  · rename_i kept hverdict
    rw [hverdict] at hnonces
    obtain rfl : kept = nonces := hnonces
    obtain ⟨r, hr, hlive, hfresh, hauthentic⟩ :=
      getSignedRequestError_iff.mp (congrArg Prod.fst hverdict)
    exact .inl ⟨r, ⟨hr, hlive, hfresh, hauthentic⟩, by rw [hr]; rfl⟩
  · rename_i _ kept hrejected hverdict
    rw [hverdict] at hnonces hpresents
    obtain rfl : kept = nonces := hnonces
    exact .inr ⟨fun r hr => hrejected (hpresents r hr), rfl⟩

theorem accepted_of_presents {a : Arrival} {r : SignedRequest} (h : env.Presents a r)
    (nonces : NonceCache) (arrivals : List Arrival) :
    env.accepted nonces (a :: arrivals) = r :: env.accepted nonces arrivals := by
  rcases accepted_cons nonces a arrivals with ⟨r', hr', hcons⟩ | ⟨hnone, -⟩
  · obtain rfl : r = r' := Option.some.inj (h.carried.symm.trans hr'.carried)
    exact hcons
  · exact absurd h (hnone r)

/-- What is accepted was presented, and everything presented is accepted. -/
theorem mem_accepted {nonces : NonceCache} {arrivals : List Arrival} {r : SignedRequest} :
    r ∈ env.accepted nonces arrivals ↔ ∃ a ∈ arrivals, env.Presents a r := by
  induction arrivals with
  | nil => simp [accepted]
  | cons a arrivals ih =>
      rcases accepted_cons nonces a arrivals with ⟨r', hr', hcons⟩ | ⟨hnone, hcons⟩
      · rw [hcons, List.mem_cons, ih]
        constructor
        · rintro (rfl | ⟨b, hb, hr⟩)
          · exact ⟨a, List.mem_cons_self, hr'⟩
          · exact ⟨b, List.mem_cons_of_mem _ hb, hr⟩
        · rintro ⟨b, hb, hr⟩
          rcases List.mem_cons.mp hb with rfl | hb
          · exact .inl (Option.some.inj (hr.carried.symm.trans hr'.carried))
          · exact .inr ⟨b, hb, hr⟩
      · rw [hcons, ih]
        constructor
        · rintro ⟨b, hb, hr⟩
          exact ⟨b, List.mem_cons_of_mem _ hb, hr⟩
        · rintro ⟨b, hb, hr⟩
          rcases List.mem_cons.mp hb with rfl | hb
          · exact absurd hr (hnone r)
          · exact ⟨b, hb, hr⟩

/-- **When every signed request is accepted at most once**: exactly where none arrives twice while
its timestamp is fresh. -/
theorem accepted_once_iff (nonces : NonceCache) (arrivals : List Arrival) :
    (env.accepted nonces arrivals).Nodup ↔
      arrivals.Pairwise fun a b => ∀ r, env.Presents a r → ¬ env.Presents b r := by
  induction arrivals with
  | nil => simp [accepted]
  | cons a arrivals ih =>
      rw [List.pairwise_cons]
      rcases accepted_cons nonces a arrivals with ⟨r, hr, hcons⟩ | ⟨hnone, hcons⟩
      · rw [hcons, List.nodup_cons, ih, mem_accepted]
        refine and_congr_left fun _ => ⟨fun h b hb r' hr' hb' => ?_, fun h => ?_⟩
        · obtain rfl : r = r' := Option.some.inj (hr.carried.symm.trans hr'.carried)
          exact h ⟨b, hb, hb'⟩
        · rintro ⟨b, hb, hb'⟩
          exact h b hb r hr hb'
      · rw [hcons, ih]
        exact ⟨fun h => ⟨fun b _ r hr => absurd hr (hnone r), h⟩, fun h => h.2⟩

/-- A request that arrives, and arrives again a second later with another nonce, is accepted twice. -/
theorem replayed_accepted : ∃ headers,
    sampleServer.signHttpRequest
        ⟨"POST", "/dispatch", Js.toISOString 1709164800000, "map-dev-key-1", ""⟩ "n1" = .ok headers ∧
      ¬ (sampleServer.accepted .empty
        [⟨1709164800000, headers.post "/dispatch", "", []⟩,
          ⟨1709164801000, { headers with nonce := "n2" }.post "/dispatch", "", []⟩]).Nodup := by
  obtain ⟨headers, hsign⟩ : ∃ headers, sampleServer.signHttpRequest
      ⟨"POST", "/dispatch", Js.toISOString 1709164800000, "map-dev-key-1", ""⟩ "n1" = .ok headers :=
    ⟨_, rfl⟩
  obtain ⟨config, hconfig, hsound⟩ := sampleServer_config
  have hauthentic := authentic_of_sign hconfig hsound (by decide) hsign
  have hfresh (now : Int) (h : now = 1709164800000 ∨ now = 1709164801000) :
      sampleServer.Fresh now (Js.toISOString 1709164800000) := by
    rcases h with rfl | rfl <;> exact ⟨1709164800000, rfl, by decide, by decide +kernel⟩
  have hpath : Js.pathname sampleServer.foreignPath "/dispatch" = some "/dispatch" := by decide
  have hcarried (nonce : String) : sampleServer.signedRequest
      ({ headers with nonce := nonce }.post "/dispatch") "" = some ⟨_, headers.requestSignature⟩ :=
    signedRequest_of_sign hsign rfl rfl rfl rfl
      (requestPayload_of_pathname hpath _ _ _)
  have hfirst : sampleServer.Presents ⟨1709164800000, headers.post "/dispatch", "", []⟩ _ :=
    ⟨hcarried headers.nonce, by simp, hfresh _ (.inl rfl), hauthentic⟩
  have hsecond : sampleServer.Presents
      ⟨1709164801000, { headers with nonce := "n2" }.post "/dispatch", "", []⟩ _ :=
    ⟨hcarried "n2", by simp, hfresh _ (.inr rfl), hauthentic⟩
  refine ⟨headers, hsign, ?_⟩
  rw [accepted_of_presents hfirst, accepted_of_presents hsecond]
  simp

end ServerEnv

end MapProtocol
