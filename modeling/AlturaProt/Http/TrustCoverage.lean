import AlturaProt.Http.ClientIpConfig

/-!
# How much a configuration trusts

A trusted range is a block of addresses of its family, so what a list of ranges
trusts can be counted (`Block.count`). A public listener leaves a peer of each
family untrusted when the ranges of that family have fewer addresses than there
are; that no single range has all of them, as the validation demands, is not
enough.

A dual-stack listener reports an IPv4 client `a.b.c.d` as `::ffff:a.b.c.d`. The
second half compares how the two forms are trusted and normalized.
-/

namespace AlturaProt.Http

open Foundation Limiter Filter

/-! ## Ranges as blocks -/

def IpRange.v4Block : IpRange → Option (Block 32)
  | .v4 network len => some (Block.of 32 network.toNat len (Nat.le_of_lt_succ len.isLt) network.isLt)
  | .v6 _ _ => none

def IpRange.v6Block : IpRange → Option (Block 128)
  | .v4 _ _ => none
  | .v6 network len =>
    some (Block.of 128 network.toNat len (Nat.le_of_lt_succ len.isLt) network.isLt)

theorem IpRange.contains_v4_iff (range : IpRange) (a : BitVec 32) :
    range.contains (.v4 a) = true ↔ ∃ b ∈ range.v4Block, a.toNat ∈ b.addresses := by
  cases range with
  | v4 network len =>
    rw [contains, beq_iff_eq, and_frontMask_eq_iff_mem (Nat.le_of_lt_succ len.isLt)]
    simp [v4Block]
  | v6 network len => simp [contains, v4Block]

theorem IpRange.contains_v6_iff (range : IpRange) (a : BitVec 128) :
    range.contains (.v6 a) = true ↔ ∃ b ∈ range.v6Block, a.toNat ∈ b.addresses := by
  cases range with
  | v4 network len => simp [contains, v6Block]
  | v6 network len =>
    rw [contains, beq_iff_eq, and_frontMask_eq_iff_mem (Nat.le_of_lt_succ len.isLt)]
    simp [v6Block]

/-- Trust is membership in a block: for any view of a family as numbers. -/
theorem isTrusted_iff_mem {w : ℕ} {r : ClientIpResolver} {blockOf : IpRange → Option (Block w)}
    {ip : IpAddr} {n : ℕ}
    (h : ∀ range : IpRange, range.contains ip = true ↔ ∃ b ∈ blockOf range, n ∈ b.addresses) :
    r.isTrusted ip = true ↔ ∃ b ∈ r.trustedProxies.filterMap blockOf, n ∈ b.addresses := by
  rw [ClientIpResolver.isTrusted, List.any_eq_true]
  constructor
  · rintro ⟨range, hrange, hcontains⟩
    obtain ⟨b, hb, hn⟩ := (h range).mp hcontains
    exact ⟨b, List.mem_filterMap.mpr ⟨range, hrange, hb⟩, hn⟩
  · rintro ⟨b, hb, hn⟩
    obtain ⟨range, hrange, hb⟩ := List.mem_filterMap.mp hb
    exact ⟨range, hrange, (h range).mpr ⟨b, hb, hn⟩⟩

/-- Some address of a family is untrusted if the blocks of the family have fewer
addresses than there are. -/
theorem exists_untrusted_iff {w : ℕ} {r : ClientIpResolver} {blockOf : IpRange → Option (Block w)}
    {ofBits : BitVec w → IpAddr}
    (h : ∀ (range : IpRange) (a : BitVec w),
      range.contains (ofBits a) = true ↔ ∃ b ∈ blockOf range, a.toNat ∈ b.addresses) :
    (∃ a, r.isTrusted (ofBits a) = false) ↔
      Block.count (r.trustedProxies.filterMap blockOf) < 2 ^ w := by
  rw [← Block.exists_notMem_iff]
  constructor
  · rintro ⟨a, ha⟩
    refine ⟨a.toNat, a.isLt, fun b hb hmem => ?_⟩
    have htrusted := (isTrusted_iff_mem fun range => h range a).mpr ⟨b, hb, hmem⟩
    exact absurd htrusted (by simp [ha])
  · rintro ⟨n, hn, hout⟩
    refine ⟨BitVec.ofNat w n, ?_⟩
    rw [← Bool.not_eq_true, isTrusted_iff_mem fun range => h range (BitVec.ofNat w n),
      BitVec.toNat_ofNat, Nat.mod_eq_of_lt hn]
    rintro ⟨b, hb, hmem⟩
    exact hout b hb hmem

/-! ## Public listeners -/

/-- **Who is left untrusted.** No range of an accepted configuration of a public listener
has all addresses of its family, and yet it leaves an address of each family untrusted
only if the outermost ranges of the family have fewer addresses together than the
family. -/
theorem public_listener_leaves_untrusted_iff (cfg : HttpConfig) (listen : BitVec 32 ⊕ BitVec 128)
    (hvalid : validateHttpTrustedProxyConfig cfg = .ok ())
    (hlisten : parseSocketIp (utf8 cfg.listen) = some listen)
    (hpublic : isLoopback listen = false) :
    (∀ range ∈ cfg.clientIp.ranges, range.toTrustedProxyRange.trustsAllPeers = false) ∧
    ∃ r, ClientIpResolver.fromConfig cfg.clientIp = some r ∧
      (((∃ a, r.isTrusted (.v4 a) = false) ∧ ∃ a, r.isTrusted (.v6 a) = false) ↔
        Block.count (cfg.clientIp.ranges.filterMap IpRange.v4Block) < 2 ^ 32 ∧
          Block.count (cfg.clientIp.ranges.filterMap IpRange.v6Block) < 2 ^ 128) := by
  refine ⟨fun range hrange => trustsAllPeers_eq_false hvalid hlisten hpublic hrange, ?_⟩
  obtain ⟨r, hr, -, hranges⟩ := fromConfig_of_valid hvalid
  refine ⟨r, hr, ?_⟩
  rw [exists_untrusted_iff IpRange.contains_v4_iff, exists_untrusted_iff IpRange.contains_v6_iff,
    hranges]

/-- A listener on all interfaces with the given trusted proxies. -/
def publicConfig (trustedProxies : List String) : HttpConfig where
  listen := "0.0.0.0:8080"
  clientIp :=
    { header := "x-forwarded-for"
      trustedProxies := trustedProxies
      maxForwardedForBytes := 4096
      maxForwardedForHops := 32 }

/-- A private network leaves both families open. -/
theorem private_network_leaves_untrusted :
    validateHttpTrustedProxyConfig (publicConfig ["10.0.0.0/8", "fd00::/8"]) = .ok () ∧
    parseSocketIp (utf8 "0.0.0.0:8080") = some (.inl 0) ∧ isLoopback (.inl 0) = false ∧
    ∃ r, ClientIpResolver.fromConfig (publicConfig ["10.0.0.0/8", "fd00::/8"]).clientIp = some r ∧
      (∃ a, r.isTrusted (.v4 a) = false) ∧ ∃ a, r.isTrusted (.v6 a) = false := by
  obtain ⟨hvalid, hlisten, hcount⟩ :
      validateHttpTrustedProxyConfig (publicConfig ["10.0.0.0/8", "fd00::/8"]) = .ok () ∧
      parseSocketIp (utf8 "0.0.0.0:8080") = some (.inl 0) ∧
      Block.count ((publicConfig ["10.0.0.0/8", "fd00::/8"]).clientIp.ranges.filterMap
        IpRange.v4Block) < 2 ^ 32 ∧
      Block.count ((publicConfig ["10.0.0.0/8", "fd00::/8"]).clientIp.ranges.filterMap
        IpRange.v6Block) < 2 ^ 128 := by decide +kernel
  refine ⟨hvalid, hlisten, rfl, ?_⟩
  obtain ⟨r, hr, hiff⟩ := (public_listener_leaves_untrusted_iff
    (publicConfig ["10.0.0.0/8", "fd00::/8"]) (.inl 0) hvalid hlisten rfl).2
  exact ⟨r, hr, hiff.mpr hcount⟩

/-- Two halves of the address space are accepted, and trust every IPv4 peer. -/
theorem two_halves_trust_every_peer :
    validateHttpTrustedProxyConfig (publicConfig ["0.0.0.0/1", "128.0.0.0/1"]) = .ok () ∧
    parseSocketIp (utf8 "0.0.0.0:8080") = some (.inl 0) ∧ isLoopback (.inl 0) = false ∧
    ∃ r, ClientIpResolver.fromConfig (publicConfig ["0.0.0.0/1", "128.0.0.0/1"]).clientIp = some r ∧
      ∀ a, r.isTrusted (.v4 a) = true := by
  obtain ⟨hvalid, hlisten, hfull⟩ :
      validateHttpTrustedProxyConfig (publicConfig ["0.0.0.0/1", "128.0.0.0/1"]) = .ok () ∧
      parseSocketIp (utf8 "0.0.0.0:8080") = some (.inl 0) ∧
      ¬ Block.count ((publicConfig ["0.0.0.0/1", "128.0.0.0/1"]).clientIp.ranges.filterMap
        IpRange.v4Block) < 2 ^ 32 := by decide +kernel
  refine ⟨hvalid, hlisten, rfl, ?_⟩
  obtain ⟨r, hr, -, hranges⟩ := fromConfig_of_valid hvalid
  refine ⟨r, hr, fun a => ?_⟩
  by_contra huntrusted
  have hcount := (exists_untrusted_iff IpRange.contains_v4_iff).mp
    ⟨a, Bool.eq_false_iff.mpr huntrusted⟩
  rw [hranges] at hcount
  exact hfull hcount

/-! ## IPv4 clients of a dual-stack listener -/

/-- The number of `::ffff:a.b.c.d`. -/
def mappedNat (a : BitVec 32) : ℕ := 0xFFFF * 2 ^ 32 + a.toNat

/-- `::ffff:a.b.c.d`. -/
def mappedIp (a : BitVec 32) : IpAddr := .v6 (BitVec.ofNat 128 (mappedNat a))

theorem toNat_mapped (a : BitVec 32) : (BitVec.ofNat 128 (mappedNat a)).toNat = mappedNat a := by
  rw [BitVec.toNat_ofNat, mappedNat]
  omega

/-- Dropping up to 32 bits of two numbers: they agree if their upper parts do and their
last 32 bits do after dropping. -/
theorem div_two_pow_eq_iff {m n k : ℕ} (hk : k ≤ 32) :
    m / 2 ^ k = n / 2 ^ k ↔ m / 2 ^ 32 = n / 2 ^ 32 ∧ m % 2 ^ 32 / 2 ^ k = n % 2 ^ 32 / 2 ^ k := by
  have hpow : (2 : ℕ) ^ 32 = 2 ^ k * 2 ^ (32 - k) := by
    rw [← pow_add, Nat.add_sub_cancel' hk]
  have hupper : ∀ x : ℕ, x / 2 ^ 32 = x / 2 ^ k / 2 ^ (32 - k) := by
    intro x
    rw [Nat.div_div_eq_div_mul, ← hpow]
  have hlower : ∀ x : ℕ, x % 2 ^ 32 / 2 ^ k = x / 2 ^ k % 2 ^ (32 - k) := by
    intro x
    rw [hpow, Nat.mod_mul_right_div_self]
  rw [hupper m, hupper n, hlower m, hlower n]
  constructor
  · intro h
    rw [h]
    exact ⟨rfl, rfl⟩
  · rintro ⟨hdiv, hmod⟩
    rw [← Nat.div_add_mod (m / 2 ^ k) (2 ^ (32 - k)), hdiv, hmod, Nat.div_add_mod]

theorem mappedNat_div (a : BitVec 32) : mappedNat a / 2 ^ 32 = 0xFFFF := by
  rw [mappedNat]
  omega

theorem mappedNat_mod (a : BitVec 32) : mappedNat a % 2 ^ 32 = a.toNat := by
  rw [mappedNat]
  omega

/-- Dropping more than 32 bits leaves nothing of the IPv4 address. -/
theorem mappedNat_div_of_lt (a : BitVec 32) {k : ℕ} (hk : 32 ≤ k) :
    mappedNat a / 2 ^ k = 0xFFFF / 2 ^ (k - 32) := by
  have hpow : (2 : ℕ) ^ k = 2 ^ 32 * 2 ^ (k - 32) := by
    rw [← pow_add, Nat.add_sub_cancel' hk]
  rw [hpow, ← Nat.div_div_eq_div_mul, mappedNat_div]

theorem mappedNat_div_eq_iff (a b : BitVec 32) {k : ℕ} (hk : k ≤ 32) :
    mappedNat a / 2 ^ k = mappedNat b / 2 ^ k ↔ a.toNat / 2 ^ k = b.toNat / 2 ^ k := by
  rw [div_two_pow_eq_iff hk, mappedNat_div, mappedNat_div, mappedNat_mod, mappedNat_mod]
  simp

/-- The IPv4 addresses whose mapped form is in a range. -/
def IpRange.mappedBlock : IpRange → Option (Block 32)
  | .v4 _ _ => none
  | .v6 network len =>
    if h : 96 ≤ len.val then
      if network.toNat / 2 ^ 32 = 0xFFFF then
        some (Block.of 32 (network.toNat % 2 ^ 32) (len - 96)
          (by have := len.isLt; omega) (Nat.mod_lt _ (by decide)))
      else none
    else if network.toNat / 2 ^ (128 - len.val) = 0xFFFF / 2 ^ (96 - len.val) then
      some (Block.of 32 0 0 (by decide) (by decide))
    else none

theorem IpRange.contains_mapped_iff (range : IpRange) (a : BitVec 32) :
    range.contains (mappedIp a) = true ↔ ∃ b ∈ range.mappedBlock, a.toNat ∈ b.addresses := by
  cases range with
  | v4 network len => simp [contains, mappedIp, mappedBlock]
  | v6 network len =>
    have hlen : len.val ≤ 128 := Nat.le_of_lt_succ len.isLt
    rw [mappedIp, contains, beq_iff_eq, and_frontMask_eq_iff hlen, toNat_mapped, mappedBlock]
    split
    · -- the range ends within the last 32 bits
      rw [div_two_pow_eq_iff (by omega), mappedNat_div, mappedNat_mod]
      have hexp : 32 - (len.val - 96) = 128 - len.val := by omega
      split
      · rename_i hfront
        simp only [Option.mem_def, Option.some.injEq, exists_eq_left', Block.mem_addresses,
          Block.size, Block.of, hexp]
        exact and_iff_right hfront.symm
      · rename_i hfront
        simp only [Option.mem_def, reduceCtorEq, false_and, exists_false, iff_false, not_and]
        exact fun h => absurd h.symm hfront
    · rw [mappedNat_div_of_lt a (by omega), show 128 - len.val - 32 = 96 - len.val by omega]
      split
      · rename_i hfront
        have hall : a.toNat / 2 ^ 32 = 0 := Nat.div_eq_of_lt a.isLt
        simp only [Option.mem_def, Option.some.injEq, exists_eq_left', Block.mem_addresses,
          Block.size, Block.of, Nat.sub_zero, Nat.zero_div, hall, iff_true]
        exact hfront.symm
      · rename_i hfront
        simp [Ne.symm hfront]

/-! ### Trust -/

/-- Both forms of every client are trusted alike if neither kind of range adds an IPv4
address to the other. -/
theorem trusted_alike_iff (r : ClientIpResolver) :
    (∀ a, r.isTrusted (mappedIp a) = r.isTrusted (.v4 a)) ↔
      Block.covered (r.trustedProxies.filterMap IpRange.mappedBlock) =
        Block.covered (r.trustedProxies.filterMap IpRange.v4Block) := by
  have hiff : ∀ a : BitVec 32, r.isTrusted (mappedIp a) = r.isTrusted (.v4 a) ↔
      (a.toNat ∈ Block.covered (r.trustedProxies.filterMap IpRange.mappedBlock) ↔
        a.toNat ∈ Block.covered (r.trustedProxies.filterMap IpRange.v4Block)) := by
    intro a
    rw [Block.mem_covered, Block.mem_covered,
      ← isTrusted_iff_mem fun range => IpRange.contains_mapped_iff range a,
      ← isTrusted_iff_mem fun range => IpRange.contains_v4_iff range a, Bool.eq_iff_iff]
  simp only [hiff]
  constructor
  · intro h
    ext n
    by_cases hn : n < 2 ^ 32
    · have hbits := h (BitVec.ofNat 32 n)
      rwa [BitVec.toNat_ofNat, Nat.mod_eq_of_lt hn] at hbits
    · -- no block has such a number
      have hnone : ∀ l : List (Block 32), n ∉ Block.covered l := fun l hmem =>
        hn (Finset.mem_range.mp (Block.covered_subset_range l hmem))
      simp [hnone]
  · intro h a
    rw [h]

/-! ### Keys -/

theorem normalizeIp_v4 (a : BitVec 32) {p4 p6 : ℕ} (h4 : p4 ≤ 32) :
    normalizeIp (.v4 a) p4 p6 = .v4 (a &&& frontMask 32 p4) := by
  unfold normalizeIp
  dsimp only
  rw [min_eq_left h4]
  split
  · rename_i hzero
    subst hzero
    simp [frontMask]
  · rename_i hpos
    split
    · rename_i hfull
      rw [hfull, and_frontMask_full]
    · rw [frontMask, if_neg hpos]

theorem normalizeIp_v6 (a : BitVec 128) {p4 p6 : ℕ} (h6 : p6 ≤ 128) :
    normalizeIp (.v6 a) p4 p6 = .v6 (a &&& frontMask 128 p6) := by
  unfold normalizeIp
  dsimp only
  rw [min_eq_left h6]
  split
  · rename_i hzero
    subst hzero
    simp [frontMask]
  · rename_i hpos
    split
    · rename_i hfull
      rw [hfull, and_frontMask_full]
    · rw [frontMask, if_neg hpos]

theorem normalizeIp_v4_eq_iff (a b : BitVec 32) {p4 p6 : ℕ} (h4 : p4 ≤ 32) :
    normalizeIp (.v4 a) p4 p6 = normalizeIp (.v4 b) p4 p6 ↔
      a.toNat / 2 ^ (32 - p4) = b.toNat / 2 ^ (32 - p4) := by
  rw [normalizeIp_v4 a h4, normalizeIp_v4 b h4, IpAddr.v4.injEq, and_frontMask_eq_iff h4]

theorem normalizeIp_mapped_eq_iff (a b : BitVec 32) {p4 p6 : ℕ} (h6 : p6 ≤ 128) :
    normalizeIp (mappedIp a) p4 p6 = normalizeIp (mappedIp b) p4 p6 ↔
      mappedNat a / 2 ^ (128 - p6) = mappedNat b / 2 ^ (128 - p6) := by
  rw [mappedIp, mappedIp, normalizeIp_v6 _ h6, normalizeIp_v6 _ h6, IpAddr.v6.injEq,
    and_frontMask_eq_iff h6, toNat_mapped, toNat_mapped]

/-- Different numbers of dropped bits tell some two addresses apart differently. -/
theorem exists_div_two_pow {k q : ℕ} (hkq : k < q) (hq : q ≤ 32) :
    ∃ a b : BitVec 32, a.toNat / 2 ^ k ≠ b.toNat / 2 ^ k ∧ a.toNat / 2 ^ q = b.toNat / 2 ^ q := by
  have hlt : (2 : ℕ) ^ k < 2 ^ q := Nat.pow_lt_pow_right (by decide) hkq
  have hle : (2 : ℕ) ^ q ≤ 2 ^ 32 := Nat.pow_le_pow_right (by decide) hq
  have hpos : 0 < (2 : ℕ) ^ k := Nat.two_pow_pos k
  have htwo : (BitVec.ofNat 32 (2 ^ k)).toNat = 2 ^ k := by
    rw [BitVec.toNat_ofNat, Nat.mod_eq_of_lt (hlt.trans_le hle)]
  refine ⟨0, BitVec.ofNat 32 (2 ^ k), ?_, ?_⟩
  · rw [htwo, Nat.div_self hpos]
    simp
  · rw [htwo, Nat.div_eq_of_lt hlt]
    simp

/-- Both forms of every two clients share a key alike if the prefix lengths differ by the
96 bits that the mapped form puts in front. -/
theorem keys_alike_iff {p4 p6 : ℕ} (h4 : 1 ≤ p4 ∧ p4 ≤ 32) (h6 : p6 ≤ 128) :
    (∀ a b, normalizeIp (mappedIp a) p4 p6 = normalizeIp (mappedIp b) p4 p6 ↔
      normalizeIp (.v4 a) p4 p6 = normalizeIp (.v4 b) p4 p6) ↔ p6 = 96 + p4 := by
  simp only [normalizeIp_mapped_eq_iff _ _ h6, normalizeIp_v4_eq_iff _ _ h4.2]
  constructor
  · intro h
    by_contra hne
    rcases Nat.lt_or_ge p6 (96 + p4) with hlt | hge
    · -- the mapped forms are told apart by fewer bits
      obtain ⟨a, b, hab, hsame⟩ := exists_div_two_pow
        (by omega : 32 - p4 < min (128 - p6) 32) (Nat.min_le_right _ _)
      refine hab ((h a b).mp ?_)
      rcases Nat.le_total (128 - p6) 32 with hle | hle
      · rw [min_eq_left hle] at hsame
        exact (mappedNat_div_eq_iff a b hle).mpr hsame
      · rw [mappedNat_div_of_lt a hle, mappedNat_div_of_lt b hle]
    · obtain ⟨a, b, hab, hsame⟩ := exists_div_two_pow
        (by omega : 128 - p6 < 32 - p4) (Nat.sub_le 32 p4)
      exact hab ((mappedNat_div_eq_iff a b (by omega)).mp ((h a b).mpr hsame))
  · rintro rfl a b
    rw [show 128 - (96 + p4) = 32 - p4 by omega]
    exact mappedNat_div_eq_iff a b (Nat.sub_le 32 p4)

/-! ### Both -/

theorem validateIpPrefixLen_ok {path : String} {value max : ℕ}
    (h : validateIpPrefixLen path value max = .ok ()) : 1 ≤ value ∧ value ≤ max := by
  have := rejectIf_eq_ok.mp h
  simp at this
  omega

/-- **IPv4 clients in both forms.** An accepted configuration treats every IPv4 client
alike in both socket forms exactly if the prefix lengths differ by 96, and the IPv4 ranges
and the mapped part of the IPv6 ranges have the same addresses: each has as many as both
together. -/
theorem mapped_clients_alike_iff (cfg : HttpConfig) (p4 p6 : ℕ)
    (hvalid : validateHttpTrustedProxyConfig cfg = .ok ())
    (h4 : validateIpPrefixLen "http.limits.ipv4_prefix_len" p4 32 = .ok ())
    (h6 : validateIpPrefixLen "http.limits.ipv6_prefix_len" p6 128 = .ok ()) :
    ∃ r, ClientIpResolver.fromConfig cfg.clientIp = some r ∧
      ((∀ a b : BitVec 32, r.isTrusted (mappedIp a) = r.isTrusted (.v4 a) ∧
        (normalizeIp (mappedIp a) p4 p6 = normalizeIp (mappedIp b) p4 p6 ↔
          normalizeIp (.v4 a) p4 p6 = normalizeIp (.v4 b) p4 p6)) ↔
      p6 = 96 + p4 ∧
        let mapped := cfg.clientIp.ranges.filterMap IpRange.mappedBlock
        let plain := cfg.clientIp.ranges.filterMap IpRange.v4Block
        Block.count mapped = Block.count (mapped ++ plain) ∧
          Block.count plain = Block.count (mapped ++ plain)) := by
  obtain ⟨r, hr, -, hranges⟩ := fromConfig_of_valid hvalid
  refine ⟨r, hr, ?_⟩
  rw [← keys_alike_iff (validateIpPrefixLen_ok h4) (validateIpPrefixLen_ok h6).2]
  rw [← Block.covered_eq_iff, ← hranges, ← trusted_alike_iff]
  constructor
  · intro h
    exact ⟨fun a b => (h a b).2, fun a => (h a 0).1⟩
  · rintro ⟨hkeys, htrust⟩ a b
    exact ⟨htrust a, hkeys a b⟩

/-- A listener on the IPv6 wildcard with the given trusted proxies. -/
def dualStackConfig (trustedProxies : List String) : HttpConfig :=
  { publicConfig trustedProxies with listen := "[::]:8080" }

/-- Both forms of a private network, and prefix lengths that fit. -/
theorem both_forms_configured_alike :
    validateHttpTrustedProxyConfig (dualStackConfig ["10.0.0.0/8", "::ffff:10.0.0.0/104"]) =
      .ok () ∧
    validateIpPrefixLen "http.limits.ipv4_prefix_len" 24 32 = .ok () ∧
    validateIpPrefixLen "http.limits.ipv6_prefix_len" 120 128 = .ok () ∧
    ∃ r, ClientIpResolver.fromConfig
        (dualStackConfig ["10.0.0.0/8", "::ffff:10.0.0.0/104"]).clientIp = some r ∧
      ∀ a b : BitVec 32, r.isTrusted (mappedIp a) = r.isTrusted (.v4 a) ∧
        (normalizeIp (mappedIp a) 24 120 = normalizeIp (mappedIp b) 24 120 ↔
          normalizeIp (.v4 a) 24 120 = normalizeIp (.v4 b) 24 120) := by
  obtain ⟨hvalid, hcover⟩ :
      validateHttpTrustedProxyConfig (dualStackConfig ["10.0.0.0/8", "::ffff:10.0.0.0/104"]) =
        .ok () ∧
      let ranges := (dualStackConfig ["10.0.0.0/8", "::ffff:10.0.0.0/104"]).clientIp.ranges
      let mapped := ranges.filterMap IpRange.mappedBlock
      let plain := ranges.filterMap IpRange.v4Block
      Block.count mapped = Block.count (mapped ++ plain) ∧
        Block.count plain = Block.count (mapped ++ plain) := by decide +kernel
  refine ⟨hvalid, rfl, rfl, ?_⟩
  obtain ⟨r, hr, hiff⟩ := mapped_clients_alike_iff
    (dualStackConfig ["10.0.0.0/8", "::ffff:10.0.0.0/104"]) 24 120 hvalid rfl rfl
  exact ⟨r, hr, hiff.mpr ⟨rfl, hcover⟩⟩

/-- With the default prefix lengths `203.0.113.7` and `198.51.100.1` have keys of their own
on an IPv4 listener and share one on a dual-stack listener, which does not know the
proxy `10.0.0.1` either. -/
theorem dual_stack_clients_share_a_key :
    validateHttpTrustedProxyConfig (dualStackConfig ["10.0.0.0/8"]) = .ok () ∧
    validateIpPrefixLen "http.limits.ipv4_prefix_len" 32 32 = .ok () ∧
    validateIpPrefixLen "http.limits.ipv6_prefix_len" 64 128 = .ok () ∧
    normalizeIp (.v4 0xCB007107) 32 64 ≠ normalizeIp (.v4 0xC6336401) 32 64 ∧
    normalizeIp (mappedIp 0xCB007107) 32 64 = normalizeIp (mappedIp 0xC6336401) 32 64 ∧
    ((ClientIpResolver.fromConfig (dualStackConfig ["10.0.0.0/8"]).clientIp).map
      fun r => (r.isTrusted (.v4 0x0A000001), r.isTrusted (mappedIp 0x0A000001))) =
      some (true, false) := by
  decide +kernel

end AlturaProt.Http
