/-
# The address a request is answered for

Behind a reverse proxy the peer of the socket is the proxy, and the client is
read from `X-Forwarded-For` (`client_ip.h`). Whoever sends a request chooses
that header, and the proxies append to it on the right, so
`resolveClientIp` walks the hops from the right and stops at the first that is
not one of the trusted proxies: what stands to its left decides nothing
(`resolveClientIp_spoof_resistant`), and a peer that is no proxy is itself the
client whatever it claims.

Parsing and masking addresses is Poco's (`AddressLibrary`). A text that is no
address belongs to no network, so as a hop it stops the walk
(`not_isTrustedProxy_of_unparsable`).
-/
import HttpBridge.Endpoints

namespace HttpBridge

/-! ### Networks -/

/-- `Poco::Net::IPAddress`: its constructors, which throw where they give
nothing, and its `&`. -/
structure AddressLibrary (Address Family : Type) where
  parse : String → Option Address
  family : Address → Family
  mask : (prefixLength : ℕ) → Family → Option Address
  meet : Address → Address → Address

variable {Address Family : Type} [DecidableEq Address] [DecidableEq Family]

/-- `client_ip.h`, `ipInCidr`. -/
def ipInCidr (N : AddressLibrary Address Family) (ip cidr : String) : Bool :=
  match N.parse ip with
  | none => false
  | some addr =>
    if '/' ∉ cidr.toList then N.parse cidr == some addr
    else
      match N.parse (upTo '/' cidr), stoul (after '/' cidr) with
      | some net, some bits =>
        -- `static_cast<unsigned>`
        let prefixLength := bits % 2 ^ 32
        if N.family addr ≠ N.family net then false
        else
          match N.mask prefixLength (N.family net) with
          | none => false
          | some mask => N.meet addr mask == N.meet net mask
      | _, _ => false

/-- A text that is no address is in no network. -/
theorem not_isTrustedProxy_of_unparsable (N : AddressLibrary Address Family) (P : Libraries)
    (hP : P.ipInCidr = ipInCidr N) {ip : String} (h : N.parse ip = none) (trusted : List String) :
    isTrustedProxy P ip trusted = false := by
  have hnone : ∀ cidr, ipInCidr N ip cidr = false := fun cidr => by rw [ipInCidr, h]
  rw [isTrustedProxy, hP, List.any_eq_false]
  intro cidr _
  rw [hnone]
  decide

/-! ### The walk -/

variable (P : Libraries) (trusted : List String)

/-- The lambda `trim` of `resolveClientIp`. -/
def trimHop (s : String) : String := trimmed [' ', '\t'] s

/-- The loop over `hops.rbegin()` to `hops.rend()`. -/
def clientAmong (peer : String) : List String → String
  | [] => peer
  | hop :: hops =>
    if hop == "" then clientAmong peer hops
    else if !isTrustedProxy P hop trusted then hop
    else clientAmong peer hops

/-- `client_ip.h`, `resolveClientIp`. -/
def resolveClientIp (peer xff : String) : String :=
  if trusted.isEmpty then
    if xff != "" then trimHop (upTo ',' xff) else peer
  else if !isTrustedProxy P peer trusted then peer
  else if xff == "" then peer
  else clientAmong P trusted peer ((splitString xff ',').map trimHop).reverse

/-- A hop the walk skips. -/
def Skipped (hop : String) : Prop := hop = "" ∨ isTrustedProxy P hop trusted = true

theorem clientAmong_cons_of_skipped (peer : String) {hop : String} (h : Skipped P trusted hop)
    (hops : List String) : clientAmong P trusted peer (hop :: hops) = clientAmong P trusted peer hops := by
  rw [clientAmong]
  by_cases hempty : hop = ""
  · rw [if_pos (by simpa using hempty)]
  · have htrusted := h.resolve_left hempty
    rw [if_neg (by simpa using hempty), htrusted]
    rfl

theorem clientAmong_append_of_skipped (peer : String) {near : List String}
    (h : ∀ hop ∈ near, Skipped P trusted hop) (rest : List String) :
    clientAmong P trusted peer (near ++ rest) = clientAmong P trusted peer rest := by
  induction near with
  | nil => rfl
  | cons hop near ih =>
    have hhop := h hop List.mem_cons_self
    rw [List.cons_append, clientAmong_cons_of_skipped P trusted peer hhop]
    exact ih fun k hk => h k (List.mem_cons_of_mem _ hk)

theorem clientAmong_cons_of_client (peer : String) {hop : String} (hne : hop ≠ "")
    (h : isTrustedProxy P hop trusted = false) (hops : List String) :
    clientAmong P trusted peer (hop :: hops) = hop := by
  rw [clientAmong, if_neg (by simpa using hne), h]
  rfl

/-! ### The hops of a header -/

/-- The hops of a header: its pieces between the commas, trimmed. -/
def hopsOf (xff : String) : List String :=
  (xff.toList.splitOn ',').map fun piece => trimHop (String.ofList piece)

/-- The empty piece that `getline` leaves out is skipped in any case. -/
theorem clientAmong_hopsOf (peer xff : String) :
    clientAmong P trusted peer ((splitString xff ',').map trimHop).reverse =
      clientAmong P trusted peer (hopsOf xff).reverse := by
  have hread : (splitString xff ',').map trimHop =
      (splitChars ',' xff.toList).map fun piece => trimHop (String.ofList piece) := by
    rw [splitString, List.map_map]
    rfl
  rw [hread, hopsOf]
  rcases splitOn_eq_splitChars ',' xff.toList with h | h
  · rw [h]
  · have hlast : Skipped P trusted (trimHop (String.ofList [])) := .inl (trimmed_empty _)
    rw [h, List.map_append, List.reverse_append]
    exact (clientAmong_cons_of_skipped P trusted peer hlast _).symm

/-- From a trusted peer the client is what the walk over the hops finds. -/
theorem resolveClientIp_of_trusted {peer : String} (hne : trusted ≠ [])
    (hpeer : isTrustedProxy P peer trusted = true) (xff : String) :
    resolveClientIp P trusted peer xff = clientAmong P trusted peer (hopsOf xff).reverse := by
  rw [resolveClientIp, if_neg (by simpa using hne), hpeer]
  by_cases hx : xff = ""
  · have hhops : hopsOf "" = [""] := by decide
    rw [hx, hhops]
    exact (clientAmong_cons_of_skipped P trusted peer (.inl rfl) []).symm
  · rw [if_neg (by decide), if_neg (by simpa using hx)]
    exact clientAmong_hopsOf P trusted peer xff

theorem resolveClientIp_of_untrusted {peer : String} (hne : trusted ≠ [])
    (hpeer : isTrustedProxy P peer trusted = false) (xff : String) :
    resolveClientIp P trusted peer xff = peer := by
  rw [resolveClientIp, if_neg (by simpa using hne), hpeer]
  rfl

/-- With only trusted hops in the header the client is the peer. -/
theorem resolveClientIp_of_all_skipped {peer xff : String} (hne : trusted ≠ [])
    (hpeer : isTrustedProxy P peer trusted = true) (h : ∀ hop ∈ hopsOf xff, Skipped P trusted hop) :
    resolveClientIp P trusted peer xff = peer := by
  have hrev : ∀ hop ∈ (hopsOf xff).reverse, Skipped P trusted hop := fun hop hhop =>
    h hop (List.mem_reverse.mp hhop)
  have happ := clientAmong_append_of_skipped P trusted peer hrev []
  rw [resolveClientIp_of_trusted P trusted hne hpeer, ← List.append_nil (hopsOf xff).reverse, happ]
  rfl

/-- The client is the right-most hop that is neither empty nor trusted. -/
theorem resolveClientIp_eq {peer xff hop : String} {far near : List String} (hne : trusted ≠ [])
    (hpeer : isTrustedProxy P peer trusted = true) (hhops : hopsOf xff = far ++ hop :: near)
    (hhop : hop ≠ "") (hclient : isTrustedProxy P hop trusted = false)
    (hnear : ∀ k ∈ near, Skipped P trusted k) : resolveClientIp P trusted peer xff = hop := by
  have hrev : ∀ k ∈ near.reverse, Skipped P trusted k := fun k hk => hnear k (List.mem_reverse.mp hk)
  rw [resolveClientIp_of_trusted P trusted hne hpeer, hhops, List.reverse_append, List.reverse_cons,
    List.append_assoc, clientAmong_append_of_skipped P trusted peer hrev]
  exact clientAmong_cons_of_client P trusted peer hhop hclient _

/-- What a client can put to the left of the right-most untrusted hop changes
nothing, and a peer that is not trusted cannot name another client at all. -/
theorem resolveClientIp_spoof_resistant (peer : String) (hne : trusted ≠ []) :
    (isTrustedProxy P peer trusted = true →
      ∀ (xff xff' hop : String) (far far' near : List String),
        hopsOf xff = far ++ hop :: near → hopsOf xff' = far' ++ hop :: near →
        hop ≠ "" → isTrustedProxy P hop trusted = false → (∀ k ∈ near, Skipped P trusted k) →
        resolveClientIp P trusted peer xff = hop ∧ resolveClientIp P trusted peer xff' = hop) ∧
      (isTrustedProxy P peer trusted = false →
        ∀ xff, resolveClientIp P trusted peer xff = peer) := by
  constructor
  · intro hpeer xff xff' hop far far' near hxff hxff' hhop hclient hnear
    exact ⟨resolveClientIp_eq P trusted hne hpeer hxff hhop hclient hnear,
      resolveClientIp_eq P trusted hne hpeer hxff' hhop hclient hnear⟩
  · intro hpeer xff
    exact resolveClientIp_of_untrusted P trusted hne hpeer xff

/-- A deployment whose only proxy is `10.0.0.5`. -/
def oneProxy : Libraries := { Libraries.refusing with ipInCidr := fun ip cidr => ip == cidr }

/-- The spoofed hop of the second header is not believed, and neither is a
direct caller. -/
theorem resolveClientIp_spoof_resistant_oneProxy :
    (resolveClientIp oneProxy ["10.0.0.5"] "10.0.0.5" "203.0.113.9, 10.0.0.5" = "203.0.113.9" ∧
      resolveClientIp oneProxy ["10.0.0.5"] "10.0.0.5" "9.9.9.9,, 203.0.113.9 , 10.0.0.5" =
        "203.0.113.9") ∧
      resolveClientIp oneProxy ["10.0.0.5"] "198.51.100.7" "1.2.3.4" = "198.51.100.7" :=
  ⟨(resolveClientIp_spoof_resistant oneProxy ["10.0.0.5"] "10.0.0.5" (by decide)).1 (by decide)
      "203.0.113.9, 10.0.0.5" "9.9.9.9,, 203.0.113.9 , 10.0.0.5" "203.0.113.9" []
      ["9.9.9.9", ""] ["10.0.0.5"] (by decide +kernel) (by decide +kernel) (by decide) (by decide)
      (by simp [Skipped, isTrustedProxy, oneProxy]),
    (resolveClientIp_spoof_resistant oneProxy ["10.0.0.5"] "198.51.100.7" (by decide)).2
      (by decide) "1.2.3.4"⟩

end HttpBridge
