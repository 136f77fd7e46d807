import StackProfile.Proofs.GroupedSamples
import StackProfile.Proofs.History
import StackProfile.Proofs.UncutRows

/-!
# Samples on the screen

Trees of stacks are covering, so layout cuts nothing off and own weights are the samples that end at
a node.
-/

namespace StackProfile

open CallTree (nodesAt)

/-! ## The engine after its first tree query -/

namespace Engine

variable {α ε : Type} [ToString α] [ToString ε] [BEq α] [Grouping ε] {p : Provider α ε}
  {config : Config} {q : Query} {level : Option Nat} {range : Option (Int × Int)}

theorem index_fetchTree_new (hl : q.level = .ok level) (hr : q.range = .ok range) :
    ((Engine.new p config).fetchTree (fun _ => p) q .live).2.index =
      (Engine.new p config).indexOf p.analysis q (profileFor (fun _ => p) level range) := by
  rw [fetchTree_new_snd (buildIndex_live hl hr)]

end Engine

namespace Folded

variable {byFirst : Bool} {text : String} {p : Profile Frame Frame} {pr : Provider Frame Frame}
  {q rowsQuery : Query} {level : Option Nat} {range : Option (Int × Int)} {r : RowRequest}

/-- All samples are on screen. For a text with counts in range together, at any grouping and level,
a request for everything shows all nodes of positive weight in full width; own weights are the
counts of the stacks that end there. -/
theorem samples_all_shown (hread : read byFirst text.toUTF8 = .ok p)
    (hsum : weightSum (((text.toList.splitOn '\n').filterMap stackOf?).map Stack.count) ≤ maxTime)
    (hlevel : q.level = .ok level) (hrange : q.range = .ok range)
    (hsource : Engine.source (fun _ => pr) range = p) (config : Config)
    (hrequest : RowRequest.read rowsQuery = .ok r) :
    let ss := (text.toList.splitOn '\n').filterMap stackOf?
    let e := ((Engine.new pr config).fetchTree (fun _ => pr) q .live).2
    r.AsksAll e.index.outline →
      e.index.profile = (level.map p.coarsen).getD p ∧
      (∃ sheet start, e.fetchRows (fun _ => pr) rowsQuery .live = Engine.respond pr.analysis sheet ∧
        e.ShowsNodes pr start sheet) ∧
      ∀ element f path, ∀ n ∈ nodesAt (f :: path) (e.index.profile.treesOf element),
        n.ownWeight = weightSum
          ((ss.filter fun s => placementAt byFirst level s = some (element, f :: path)).map
            Stack.count) := by
  intro ss e hr
  rw [read_of_decode (Utf8.decode_eq_ok.mpr rfl)] at hread
  obtain ⟨-, hp⟩ := readText_eq_ok.mp hread
  have hss : stacksOf text.toList = ss := stacksOf_eq text.toList
  have hcount : ∀ s ∈ ss, s.count ≤ maxTime := hss ▸ count_le_of_mem
  rw [hss] at hp
  have hindex : e.index = (Engine.new pr config).indexOf pr.analysis q
      ((level.map p.coarsen).getD p) := by
    rw [← Engine.profileFor_of_source hsource level]
    exact Engine.index_fetchTree_new hlevel hrange
  have hprofile : e.index.profile = (level.map p.coarsen).getD p := by rw [hindex]; rfl
  have hweighs : ∀ element, Weighs (samplesOf (placementAt byFirst level) element ss)
      (e.index.profile.treesOf element) := fun element => by
    rw [hprofile, ← hp]
    exact weighs_foldl byFirst hcount hsum level element
  have houtline : e.index.outline = Outline.of e.index.profile config.traceName := by
    rw [hindex]; rfl
  have hsound : e.index.Sound := by
    refine ⟨?_, .inr ⟨_, houtline⟩⟩
    have hprofileSound : p.Sound := hp ▸ (counts_foldl byFirst hcount).sound
    rw [hprofile]
    cases level with
    | none => exact hprofileSound
    | some n => exact hprofileSound.coarsen n
  obtain ⟨sheet, hsheet, hshows⟩ :=
    Engine.sheet_showsNodes hsound houtline (fun element => (hweighs element).fits) hr pr
  refine ⟨hprofile, ⟨sheet, _, Engine.fetchRows_of_sheet hrequest hsheet, hshows⟩, ?_⟩
  intro element f path n hn
  rw [(hweighs element).ownWeight_at hn, total_ending_samplesOf]

/-- Two threads pooled under one element, at all moments up to 5. -/
theorem samples_all_shown_threads :
    let text := "main;draw 3\nio;draw 2"
    let q := Query.withLevel {} 0
    let rowsQuery := Query.withTimes {} ((List.range 6).map Int.ofNat)
    ∃ p, read true text.toUTF8 = .ok p ∧
      let pr := Command.samples "threads" p
      let e := ((Engine.new pr {}).fetchTree (fun _ => pr) q .live).2
      e.index.profile = p.coarsen 0 ∧ ∃ sheet start,
        e.fetchRows (fun _ => pr) rowsQuery .live = .completed sheet ∧
          e.ShowsNodes pr start sheet := by
  intro text q rowsQuery
  have hlevel : q.level = .ok (some 0) := by cbv
  have hrange : q.range = .ok none := by cbv
  have hrequest : RowRequest.read rowsQuery = .ok { times := (List.range 6).map Int.ofNat } := rfl
  have hdecode : Utf8.decode text.toUTF8 = .ok text := Utf8.decode_eq_ok.mpr rfl
  let p := (stacksOf text.toList).foldl (addStack true) {}
  have hread : read true text.toUTF8 = .ok p := by
    rw [read_of_decode hdecode]
    exact readText_eq_ok.mpr ⟨by decide +kernel, rfl⟩
  refine ⟨p, hread, ?_⟩
  intro pr e
  have hsource : Engine.source (fun _ => pr) none = p := rfl
  have hend : ∀ x ∈ e.index.outline.entries, x.kind = .trace → x.finish = 5 := by decide +kernel
  obtain ⟨hprofile, hsheet, -⟩ := samples_all_shown hread (by decide +kernel) hlevel hrange hsource
    {} hrequest {
      unfiltered := rfl
      items := fun ids hids => absurd hids (Option.not_mem_none ids)
      times := fun x hx hkind t h0 h1 => by
        rw [hend x hx hkind] at h1
        exact List.mem_map.mpr ⟨t.toNat, List.mem_range.mpr (by omega), Int.toNat_of_nonneg h0⟩ }
  exact ⟨hprofile, hsheet⟩

end Folded

end StackProfile
