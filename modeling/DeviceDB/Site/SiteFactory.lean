import Mathlib.Data.List.Infix

/-!
# Storage namespaces of a cloud site

`CloudSiteFactory.CreateSite(siteID)` gives each of the site's four buckets a storage driver
that prefixes every key with `siteBucketPrefix(siteID, []byte{bucketPrefix})`: the site ID's
bytes followed by the bucket's prefix byte (`defaultNodePrefix = 0`, `cloudNodePrefix = 1`,
`lwwNodePrefix = 2`, `localNodePrefix = 3`). A Go string is a sequence of bytes, so site IDs
and keys are byte lists here.

There is no separator and no length field between the site ID and the bucket byte, so the
namespaces of two sites overlap as soon as one site ID is another followed by a bucket byte:
`siteBucketPrefix_collides` exhibits one. `siteBucketPrefix_separates_iff` says exactly when
the namespaces of two `(site, bucket)` pairs are disjoint: two prefixes of one storage key
are comparable, and a prefix that is not the whole of the other ends inside the other site
ID.
-/

namespace DeviceDB

/-- The bucket prefix bytes, the `iota` constants of `site_factory.go` that `CreateSite`
uses. -/
def defaultNodePrefix : UInt8 := 0
def cloudNodePrefix : UInt8 := 1
def lwwNodePrefix : UInt8 := 2
def localNodePrefix : UInt8 := 3

/-- The prefix bytes `CreateSite` gives the default, cloud, LWW and local buckets. -/
def createSiteBucketPrefixes : List UInt8 :=
  [defaultNodePrefix, cloudNodePrefix, lwwNodePrefix, localNodePrefix]

/-- `siteBucketPrefix(siteID, bucketPrefix)`: `append` the site ID's bytes, then the bucket
prefix, to an empty slice. -/
def siteBucketPrefix (siteID bucketPrefix : List UInt8) : List UInt8 :=
  ([] ++ siteID) ++ bucketPrefix

theorem siteBucketPrefix_eq (siteID bucketPrefix : List UInt8) :
    siteBucketPrefix siteID bucketPrefix = siteID ++ bucketPrefix := rfl

/-- **Two sites share a storage key.** Site `"a"`'s cloud bucket and site `"a\x01"`'s default
bucket both store a key at `"a\x01\x00k"`. -/
theorem siteBucketPrefix_collides :
    cloudNodePrefix ∈ createSiteBucketPrefixes ∧ defaultNodePrefix ∈ createSiteBucketPrefixes ∧
      ([0x61], cloudNodePrefix, [0x00, 0x6b]) ≠ ([0x61, 0x01], defaultNodePrefix, [0x6b]) ∧
      siteBucketPrefix [0x61] [cloudNodePrefix] ++ [0x00, 0x6b] =
        siteBucketPrefix [0x61, 0x01] [defaultNodePrefix] ++ [0x6b] := by
  decide

/-- Two `(site, bucket)` prefixes of one storage key: either they are the same pair, or one
site ID extends the other followed by that site's bucket byte. -/
private theorem eq_or_prefix_of_append_eq {s₁ s₂ k₁ k₂ : List UInt8} {b₁ b₂ : UInt8}
    (h : s₁ ++ [b₁] ++ k₁ = s₂ ++ [b₂] ++ k₂) (hle : s₁.length ≤ s₂.length) :
    (s₁ = s₂ ∧ b₁ = b₂ ∧ k₁ = k₂) ∨ s₁ ++ [b₁] <+: s₂ := by
  have h₂ : s₂ ++ [b₂] <+: s₁ ++ [b₁] ++ k₁ := h ▸ List.prefix_append _ _
  have hp : s₁ ++ [b₁] <+: s₂ ++ [b₂] :=
    List.prefix_of_prefix_length_le (List.prefix_append _ _) h₂ (by simpa using hle)
  rcases hle.eq_or_lt with hlen | hlt
  · have he := hp.eq_of_length (by simp [hlen])
    obtain ⟨rfl, hb⟩ := List.append_inj he hlen
    rw [he] at h
    exact .inl ⟨rfl, List.singleton_inj.1 hb, List.append_cancel_left h⟩
  · exact .inr (List.prefix_of_prefix_length_le hp (List.prefix_append _ _) (by simpa using hlt))

/-- **When two `(site, bucket)` namespaces are disjoint.** Distinct `(site, bucket, key)`
triples get distinct storage keys exactly when neither site ID starts with the other site ID
followed by that site's bucket byte. -/
theorem siteBucketPrefix_separates_iff (s₁ s₂ : List UInt8) (b₁ b₂ : UInt8) :
    (∀ k₁ k₂, (s₁, b₁, k₁) ≠ (s₂, b₂, k₂) →
        siteBucketPrefix s₁ [b₁] ++ k₁ ≠ siteBucketPrefix s₂ [b₂] ++ k₂) ↔
      ¬ s₁ ++ [b₁] <+: s₂ ∧ ¬ s₂ ++ [b₂] <+: s₁ := by
  simp only [siteBucketPrefix_eq]
  constructor
  · -- an extension by a bucket byte yields a collision
    refine fun h => ⟨fun ⟨w, hw⟩ => ?_, fun ⟨w, hw⟩ => ?_⟩
    · refine h (w ++ [b₂]) [] (fun he => ?_) (by simp [← hw])
      have := congrArg List.length (congrArg Prod.fst he)
      simp [← hw] at this
    · refine h [] (w ++ [b₁]) (fun he => ?_) (by simp [← hw])
      have := congrArg List.length (congrArg Prod.fst he)
      simp [← hw] at this
  · -- otherwise compare the two site IDs' lengths
    rintro ⟨h₁, h₂⟩ k₁ k₂ hne he
    rcases le_total s₁.length s₂.length with hle | hle
    · rcases eq_or_prefix_of_append_eq he hle with ⟨rfl, rfl, rfl⟩ | hp
      exacts [hne rfl, h₁ hp]
    · rcases eq_or_prefix_of_append_eq he.symm hle with ⟨rfl, rfl, rfl⟩ | hp
      exacts [hne rfl, h₂ hp]

end DeviceDB
