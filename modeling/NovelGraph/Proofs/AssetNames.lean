import NovelGraph.Proofs.ExportedLabels

/-! Names of exported assets. A path is cut behind the first marker of the game directory, by a
place that is counted in the small letters of the path, and what is left is cut once more. So an
asset keeps the name that follows the marker exactly if no dotted capital stands above the marker
and no other marker below. -/
namespace NovelGraph

open Outcome

namespace Text

variable {c x : Char} {cs word : List Char} {n : ℕ}

/-! ### The marker in small letters -/

/-- The capitals from `A` to `Z`. -/
def latin : CaseRun := ⟨0x41, 0x5a, 1, 32⟩

lemma covers_iff {r : CaseRun} : r.covers c = true ↔
    (r.first ≤ c.toNat ∧ c.toNat ≤ r.last) ∧ (c.toNat - r.first) % r.step = 0 := by
  simp [CaseRun.covers]

lemma latin_covers_iff : latin.covers c = true ↔ 0x41 ≤ c.toNat ∧ c.toNat ≤ 0x5a := by
  simp [covers_iff, latin, Nat.mod_one]

lemma lowerChar_of_latin (h : latin.covers c = true) : lowerChar c = c.toLower := by
  have hforms : ∀ k < 26, (Char.ofNat (0x41 + k)).toLower = Char.ofNat (0x41 + k + 32) := by decide
  obtain ⟨hlow, hhigh⟩ := latin_covers_iff.mp h
  obtain ⟨k, hk⟩ := Nat.exists_eq_add_of_le hlow
  have hfind : caseRuns.find? (·.covers c) = some latin := List.find?_cons_of_pos h
  calc lowerChar c = Char.ofNat ((c.toNat : Int) + 32).toNat := by rw [lowerChar, hfind]; rfl
    _ = Char.ofNat (0x41 + k + 32) := by rw [hk]; congr 1
    _ = c.toLower := by rw [← hforms k (by omega), ← hk, Char.ofNat_toNat]

lemma toLower_of_not_latin (h : latin.covers c = false) : c.toLower = c := by
  refine dif_neg fun hc => ?_
  have hcovers : latin.covers c = true := latin_covers_iff.mpr hc
  simp [h] at hcovers

lemma toNat_of_ofNat_eq (h : Char.ofNat n = x) (hx : 0 < x.toNat) : x.toNat = n := by
  rw [← h] at hx ⊢
  by_cases hn : n.isValidChar
  · exact congrArg Char.toNat (dif_pos hn : Char.ofNat n = Char.ofNatAux n hn)
  · have hzero : Char.ofNat n = '\x00' := dif_neg hn
    rw [hzero] at hx
    exact absurd hx (Nat.lt_irrefl 0)

lemma eq_of_mem_marker (hx : x ∈ Asset.marker.toList) :
    x = '/' ∨ x = 'g' ∨ x = 'a' ∨ x = 'm' ∨ x = 'e' ∨ x = '/' := by
  simpa [Asset.marker] using hx

/-- The other capitals and their small forms are no characters of the marker. -/
lemma caseRuns_apart {r : CaseRun} (hr : r ∈ caseRuns.tail) (hx : x ∈ Asset.marker.toList) :
    0 < x.toNat ∧ x.toNat < r.first ∧
      (r.last + r.shift < x.toNat ∨ x.toNat < r.first + r.shift) := by
  have hall : caseRuns.tail.all (fun r => Asset.marker.toList.all fun x =>
      decide (0 < x.toNat ∧ x.toNat < r.first ∧
        (r.last + r.shift < x.toNat ∨ x.toNat < r.first + r.shift))) = true := by
    decide +kernel
  exact of_decide_eq_true (List.all_eq_true.mp (List.all_eq_true.mp hall r hr) x hx)

lemma lowerChar_eq_iff (hx : x ∈ Asset.marker.toList) : lowerChar c = x ↔ c.toLower = x := by
  by_cases hlatin : latin.covers c = true
  · rw [lowerChar_of_latin hlatin]
  rw [Bool.not_eq_true] at hlatin
  rw [toLower_of_not_latin hlatin]
  have hfind : caseRuns.find? (·.covers c) = caseRuns.tail.find? (·.covers c) :=
    List.find?_cons_of_neg (by simpa [latin] using hlatin)
  rw [lowerChar, hfind]
  cases hrun : caseRuns.tail.find? (·.covers c) with
  | none => rfl
  | some r =>
    have hcovers := List.find?_some hrun
    obtain ⟨⟨hfirst, hlast⟩, -⟩ := covers_iff.mp hcovers
    obtain ⟨hpos, hlow, hform⟩ := caseRuns_apart (List.mem_of_find?_eq_some hrun) hx
    refine iff_of_false (fun h => ?_) (fun h => ?_)
    · have hcode := toNat_of_ofNat_eq h hpos
      omega
    · rw [h] at hfirst
      omega

lemma lowerFrom_dotted (before cs : List Char) :
    lowerFrom before ('İ' :: cs) = 'i' :: '\u0307' :: lowerFrom ('İ' :: before) cs := rfl

/-- Any other character has one small form. It is in the marker where the plain one is. -/
lemma lowerFrom_cons (before cs : List Char) (hc : c ≠ 'İ') :
    ∃ d, lowerFrom before (c :: cs) = d :: lowerFrom (c :: before) cs ∧
      ∀ x ∈ Asset.marker.toList, d = x ↔ c.toLower = x := by
  have hsigma : ∀ x ∈ Asset.marker.toList, 'ς' ≠ x ∧ 'σ' ≠ x ∧ Char.toLower 'Σ' ≠ x := by
    intro x hx
    rcases eq_of_mem_marker hx with rfl | rfl | rfl | rfl | rfl | rfl <;> decide
  rw [lowerFrom, if_neg hc]
  by_cases hs : c = 'Σ'
  · subst hs
    rw [if_pos rfl]
    split
    · exact ⟨'ς', rfl, fun x hx => iff_of_false (hsigma x hx).1 (hsigma x hx).2.2⟩
    · exact ⟨'σ', rfl, fun x hx => iff_of_false (hsigma x hx).2.1 (hsigma x hx).2.2⟩
  · rw [if_neg hs]
    exact ⟨lowerChar c, rfl, fun x hx => lowerChar_eq_iff hx⟩

lemma isPrefixOf_lowerFrom (before cs : List Char) (hword : word ⊆ Asset.marker.toList) :
    word.isPrefixOf (lowerFrom before cs) = word.isPrefixOf (cs.map Char.toLower) := by
  induction word generalizing before cs with
  | nil => simp
  | cons x word ih =>
    obtain ⟨hx, hword⟩ := List.cons_subset.mp hword
    cases cs with
    | nil => rfl
    | cons c rest =>
      by_cases hc : c = 'İ'
      · subst hc
        have hdotted : (x == 'i') = false ∧ (x == Char.toLower 'İ') = false := by
          rcases eq_of_mem_marker hx with rfl | rfl | rfl | rfl | rfl | rfl <;> decide
        rw [lowerFrom_dotted, List.map_cons, List.isPrefixOf, List.isPrefixOf, hdotted.1,
          hdotted.2, Bool.false_and, Bool.false_and]
      · obtain ⟨d, hd, hform⟩ := lowerFrom_cons before rest hc
        have hsame : (x == d) = (x == c.toLower) := by
          rw [Bool.eq_iff_iff, beq_iff_eq, beq_iff_eq, eq_comm, hform x hx, eq_comm]
        rw [hd, List.map_cons, List.isPrefixOf, List.isPrefixOf, hsame, ih _ _ hword]

/-- The place of the marker in the small letters of a text. Each dotted capital in front of the
marker moves it by one character. -/
lemma find?_lowerFrom (before cs : List Char) :
    find? Asset.marker.toList (lowerFrom before cs) =
      (find? Asset.marker.toList (cs.map Char.toLower)).map fun n =>
        n + (cs.take n).count 'İ' := by
  induction cs generalizing before with
  | nil => rfl
  | cons c rest ih =>
    by_cases hc : c = 'İ'
    · subst hc
      -- The marker starts with neither of the two small characters.
      have hskip : ∀ d ds, ('/' == d) = false →
          Asset.marker.toList.isPrefixOf (d :: ds) = false := by
        intro d ds hd
        rw [show Asset.marker.toList = '/' :: "game/".toList from rfl, List.isPrefixOf, hd,
          Bool.false_and]
      rw [lowerFrom_dotted, List.map_cons, find?, find?, find?, hskip _ _ rfl, hskip _ _ rfl,
        hskip _ _ rfl, ih]
      cases find? Asset.marker.toList (rest.map Char.toLower) with
      | none => rfl
      | some n =>
        simp only [Bool.false_eq_true, if_false, Option.map_some, Option.some.injEq,
          List.take_succ_cons, List.count_cons_self]
        omega
    · have hsame := isPrefixOf_lowerFrom before (c :: rest)
        (List.Subset.refl Asset.marker.toList)
      obtain ⟨d, hd, -⟩ := lowerFrom_cons before rest hc
      rw [hd, List.map_cons] at hsame
      rw [hd, List.map_cons, find?, find?, hsame, ih]
      split
      · rfl
      · cases find? Asset.marker.toList (rest.map Char.toLower) with
        | none => rfl
        | some n =>
          simp only [Option.map_some, Option.some.injEq, List.take_succ_cons,
            List.count_cons_of_ne hc]
          omega

end Text

namespace Asset

variable {w : List Char} {v : Value}

/-- The path that a value spells, with slashes for backslashes. -/
def route (v : Value) : List Char := v.display.toList.map fun c => if c = '\\' then '/' else c

/-- A path that holds the marker of the game directory, in any letter case. -/
def Leads (path : List Char) : Prop := marker.toList <:+: path.map Char.toLower

instance (path : List Char) : Decidable (Leads path) :=
  decidable_of_iff _ Text.isSome_find?_iff

/-- A path cut at the first marker of the game directory. -/
structure Cut where
  above : List Char
  mark : List Char
  below : List Char
  spelled : mark.map Char.toLower = marker.toList
  first : ∀ n < above.length, ¬ marker.toList <+: ((above ++ mark).drop n).map Char.toLower

namespace Cut

def path (cut : Cut) : List Char := cut.above ++ cut.mark ++ cut.below

/-- What an export keeps of a path: the name below the marker, without as many characters as there
are dotted capitals above. -/
def kept (cut : Cut) : List Char := (cut.below.drop (cut.above.count 'İ')).dropWhile (· == '/')

variable (cut : Cut)

lemma length_mark : cut.mark.length = 6 := by
  have h := congrArg List.length cut.spelled
  rwa [List.length_map] at h

lemma find?_eq : Text.find? marker.toList (cut.path.map Char.toLower) = some cut.above.length := by
  refine Text.find?_eq_some ?_ fun k hk h => cut.first k hk ?_
  · rw [← List.map_drop, path, List.append_assoc, List.drop_left, List.map_append, cut.spelled]
    exact List.prefix_append _ _
  · -- A marker that starts in front of the first one ends in front of its end.
    have hk' : k ≤ (cut.above ++ cut.mark).length := by
      rw [List.length_append]
      omega
    rw [← List.map_drop, path, List.drop_append_of_le_length hk', List.map_append] at h
    refine List.prefix_of_prefix_length_le h (List.prefix_append _ _) ?_
    rw [List.length_map, List.length_drop, List.length_append, cut.length_mark]
    show 6 ≤ _
    omega

lemma leads : Leads cut.path := by
  refine Text.isSome_find?_iff.mp ?_
  rw [cut.find?_eq, Option.isSome_some]

lemma kept_suffix : cut.kept <:+ cut.below :=
  (List.dropWhile_suffix _).trans (List.drop_suffix _ _)

lemma length_kept_lt : cut.kept.length < cut.path.length := by
  have hkept := cut.kept_suffix.length_le
  rw [path, List.length_append, List.length_append, cut.length_mark]
  omega

lemma kept_eq_below_iff (hne : cut.below ≠ []) (hslash : cut.below.head? ≠ some '/') :
    cut.kept = cut.below ↔ 'İ' ∉ cut.above := by
  rw [← List.count_eq_zero]
  constructor
  · intro h
    have hlength := congrArg List.length h
    have hdropped : cut.kept.length ≤ (cut.below.drop (cut.above.count 'İ')).length :=
      (List.dropWhile_suffix _).length_le
    have hpos := List.length_pos_iff.mpr hne
    rw [List.length_drop] at hdropped
    omega
  · intro h
    rw [kept, h, List.drop_zero]
    cases hbelow : cut.below with
    | nil => rfl
    | cons c rest =>
      rw [hbelow] at hslash
      exact List.dropWhile_cons_of_neg (by simpa using hslash)

/-- Two cuts give what follows the first marker exactly if neither takes anything from it. -/
lemma below_iff (hne : cut.below ≠ []) (hslash : cut.below.head? ≠ some '/')
    (h : ¬ Leads cut.kept ∧ w = cut.kept ∨
      ∃ again : Cut, again.path = cut.kept ∧ w = again.kept) :
    w = cut.below ↔ 'İ' ∉ cut.above ∧ ¬ Leads cut.below := by
  rw [← cut.kept_eq_below_iff hne hslash]
  rcases h with ⟨hleads, rfl⟩ | ⟨again, hagain, rfl⟩
  · exact ⟨fun h => ⟨h, h ▸ hleads⟩, fun h => h.1⟩
  · refine iff_of_false (fun h => ?_) fun h => h.2 ?_
    · have hshorter := again.length_kept_lt
      have hkept := cut.kept_suffix.length_le
      rw [hagain, h] at hshorter
      omega
    · rw [← h.1, ← hagain]
      exact again.leads

end Cut

lemma exists_cut (h : Leads w) : ∃ cut : Cut, cut.path = w := by
  obtain ⟨n, hn, hfirst⟩ := Text.exists_first_place h
  have htake : w.take n ++ (w.drop n).take 6 = w.take (n + 6) := List.take_add.symm
  have hspelled : ((w.drop n).take 6).map Char.toLower = marker.toList := by
    rw [List.map_take, List.map_drop]
    exact (List.prefix_iff_eq_take.mp hn).symm
  refine ⟨⟨w.take n, (w.drop n).take 6, w.drop (n + 6), hspelled, fun k hk hearly => ?_⟩, ?_⟩
  · have hk : k < n := Nat.lt_of_lt_of_le hk (List.length_take_le n w)
    refine hfirst k hk (hearly.trans ?_)
    rw [htake, ← List.map_drop, List.drop_take]
    exact List.IsPrefix.map _ (List.take_prefix _ _)
  · exact (congrArg (· ++ w.drop (n + 6)) htake).trans (List.take_append_drop _ _)

/-- The place of the marker is counted in small letters, and used in the path as it is. -/
lemma belowGame?_eq (v : Value) :
    belowGame? v = (Text.find? marker.toList ((route v).map Char.toLower)).map fun n =>
      String.ofList
        (((route v).drop (n + ((route v).take n).count 'İ' + 6)).dropWhile (· == '/')) := by
  have hshown : (Text.replaceChar '\\' ['/'] v.display).toList = route v :=
    Text.toList_replaceChar _ _ _
  simp only [belowGame?, hshown, Text.lower, String.toList_ofList, Text.find?_lowerFrom,
    Option.map_map]
  rfl

lemma belowGame?_of_cut {cut : Cut} (h : route v = cut.path) :
    belowGame? v = some (String.ofList cut.kept) := by
  have htake : cut.path.take cut.above.length = cut.above := by
    rw [Cut.path, List.append_assoc, List.take_left]
  have hlength : (cut.above ++ cut.mark).length = cut.above.length + 6 := by
    rw [List.length_append, cut.length_mark]
  have hdrop : cut.path.drop (cut.above.length + cut.above.count 'İ' + 6) =
      cut.below.drop (cut.above.count 'İ') := by
    rw [Cut.path, Nat.add_right_comm, ← hlength, List.drop_length_add_append]
  rw [belowGame?_eq, h, cut.find?_eq, Option.map_some, htake, hdrop, Cut.kept]

lemma belowGame?_of_not_leads (h : ¬ Leads (route v)) : belowGame? v = none := by
  rw [belowGame?_eq, Text.find?_eq_none h, Option.map_none]

/-- A value without content is written in fewer characters than the marker has. -/
lemma isTruthy_of_leads (h : Leads (route v)) : v.isTruthy = true := by
  by_contra hfalse
  have hshort : v.display.toList.length ≤ 5 := by
    cases v with
    | null => decide
    | bool b =>
      cases b with
      | false => decide
      | true => simp [Value.isTruthy] at hfalse
    | int n =>
      obtain rfl : n = 0 := by simpa [Value.isTruthy] using hfalse
      decide
    | float x =>
      have hzero : (x.isNan = false ∧ x.isInfinite = false) ∧ x.significand = 0 := by
        simpa [Value.isTruthy] using hfalse
      simp only [Value.display, Value.literal, Decimal.Layout.write, hzero, Bool.false_eq_true,
        if_true, if_false, String.toList_ofList]
      split <;> simp
    | text s =>
      obtain rfl : s = "" := by simpa [Value.isTruthy] using hfalse
      decide
    | list items =>
      obtain rfl : items = [] := by simpa [Value.isTruthy] using hfalse
      decide
    | object members =>
      obtain rfl : members = [] := by simpa [Value.isTruthy] using hfalse
      decide
  have hlong : 6 ≤ ((route v).map Char.toLower).length := h.length_le
  rw [List.length_map, route, List.length_map] at hlong
  omega

/-- A route holds no backslash, so a part of it is read as it stands. -/
lemma route_text (h : w <:+ route v) : route (.text (String.ofList w)) = w := by
  have hplain : ∀ c ∈ w, c ≠ '\\' := by
    rintro c hc rfl
    obtain ⟨d, -, hd⟩ := List.mem_map.mp (h.subset hc)
    split at hd
    · cases hd
    · contradiction
  rw [route, Value.display_text, String.toList_ofList]
  exact (List.map_congr_left fun c hc => if_neg (hplain c hc)).trans (List.map_id' w)

/-- A parameter after the second pass. -/
def shortened (v : Value) : Value :=
  if v.isTruthy then (belowGame? v).elim v .text else v

lemma shortened_text (h : w <:+ route v) : ∃ below,
    shortened (.text (String.ofList w)) = .text (String.ofList below) ∧
      (¬ Leads w ∧ below = w ∨ ∃ again : Cut, again.path = w ∧ below = again.kept) := by
  have hroute := route_text h
  by_cases hleads : Leads w
  · obtain ⟨again, hagain⟩ := exists_cut hleads
    have htruthy : (Value.text (String.ofList w)).isTruthy = true :=
      isTruthy_of_leads (hroute.symm ▸ hleads)
    refine ⟨again.kept, ?_, .inr ⟨again, hagain, rfl⟩⟩
    rw [shortened, if_pos htruthy, belowGame?_of_cut (hroute.trans hagain.symm)]
    rfl
  · refine ⟨w, ?_, .inl ⟨hleads, rfl⟩⟩
    rw [shortened, belowGame?_of_not_leads (hroute.symm ▸ hleads)]
    exact ite_self _

lemma mem_keys_of_slot? {kind : BlockKind} {key folder : String}
    (h : slot? kind = some (key, folder)) : key ∈ keys kind := by
  cases kind <;> simp_all [slot?, keys]

lemma keys_nodup (kind : BlockKind) : (keys kind).Nodup := by
  cases kind <;> decide

end Asset

namespace Block

variable {b : Block} {ms : List (String × Value)} {key folder : String} {v : Value}

lemma locateAsset_of_cut (hslot : Asset.slot? b.kind = some (key, folder))
    (hparams : b.params = .object ms) (hv : Value.lookup ms key = some v) {cut : Asset.Cut}
    (hpath : Asset.route v = cut.path) : b.locateAsset =
      .ok { b with params := .object (Value.assign ms key (.text (String.ofList cut.kept))) } := by
  have htruthy : v.isTruthy = true := by
    refine Asset.isTruthy_of_leads ?_
    rw [hpath]
    exact cut.leads
  have hname : Asset.name folder v = .ok (String.ofList cut.kept) := by
    unfold Asset.name
    simp only [Asset.belowGame?_of_cut hpath]
  unfold locateAsset
  simp only [hslot, hparams, Value.members, ok_bind, hv, htruthy, if_true, hname]
  rfl

lemma shortenAssets_of_object (hparams : b.params = .object ms) :
    ∃ ms', b.shortenAssets = .ok { b with params := .object ms' } ∧
      ∀ name ∈ Asset.keys b.kind,
        Value.lookup ms' name = (Value.lookup ms name).map Asset.shortened := by
  unfold shortenAssets
  by_cases hkeys : (Asset.keys b.kind).isEmpty = true
  · refine ⟨ms, ?_, ?_⟩
    · rw [if_pos hkeys, ← hparams]
    · rw [List.isEmpty_iff.mp hkeys]
      simp
  · rw [if_neg hkeys, hparams]
    refine ⟨_, rfl, fun name hname => ?_⟩
    rw [Value.lookup_foldl ?_ (Asset.keys_nodup b.kind), if_pos hname]
    intro ms key name
    by_cases hkey : key = name
    · subst hkey
      rw [if_pos rfl]
      cases hlookup : Value.lookup ms key with
      | none => simpa using hlookup
      | some v =>
        cases htruthy : v.isTruthy with
        | false => simp [Asset.shortened, htruthy, hlookup]
        | true =>
          cases hbelow : Asset.belowGame? v with
          | none => simp [Asset.shortened, htruthy, hbelow, hlookup]
          | some below => simp [Asset.shortened, htruthy, hbelow, Value.lookup_assign]
    · rw [if_neg hkey]
      repeat' split
      all_goals simp [Value.lookup_assign, hkey]

end Block

namespace Project

variable {p q : Project} {taken : List String}

/-- The block at a place of a scene. -/
def block? (p : Project) (i j : ℕ) : Option Block := p.scenes[i]?.bind (·.blocks[j]?)

lemma prepared_blocks (h : p.prepared taken = .ok q) :
    List.Forall₂ (fun s t : Scene => List.Forall₂
      (fun b c => (b.locateAsset >>= Block.shortenAssets) = .ok c) s.blocks t.blocks)
      p.scenes q.scenes := by
  obtain ⟨short, hshort, hrelabel⟩ := prepared_eq_ok h
  obtain ⟨located, hlocated, hshort⟩ := bind_eq_ok.mp hshort
  obtain ⟨scenes, hscenes, hq⟩ := bind_eq_ok.mp hrelabel
  obtain rfl := pure_eq_ok.mp hq
  have hrest : List.Forall₂ (fun s t : Scene => List.Forall₂
      (fun b c => b.shortenAssets = .ok c) s.blocks t.blocks) located.scenes scenes := by
    refine forall₂_comp (fun s t u hst htu => ?_) (mapBlocks_eq_ok hshort)
      (Relabel.scenes_eq_ok hscenes)
    rw [htu]
    exact hst
  refine forall₂_comp (fun s t u hst htu => ?_) (mapBlocks_eq_ok hlocated) hrest
  refine forall₂_comp (fun b c d hbc hcd => ?_) hst htu
  exact bind_eq_ok.mpr ⟨c, hbc, hcd⟩

lemma prepared_block? (h : p.prepared taken = .ok q) {i j : ℕ} {b : Block}
    (hb : p.block? i j = some b) :
    ∃ c, q.block? i j = some c ∧ (b.locateAsset >>= Block.shortenAssets) = .ok c := by
  obtain ⟨s, hs, hb⟩ := Option.bind_eq_some_iff.mp hb
  obtain ⟨t, ht, hblocks⟩ := getElem?_of_forall₂ (prepared_blocks h) hs
  obtain ⟨c, hc, hbc⟩ := getElem?_of_forall₂ hblocks hb
  exact ⟨c, Option.bind_eq_some_iff.mpr ⟨t, ht, hc⟩, hbc⟩

end Project

namespace Block

/-- A block whose asset lies below the game directory is prepared without a fault, and the project
that is exported has the result in its place. The name that the asset gets there is what is kept of
its path, cut once more if another marker follows. It is all that follows the first marker exactly
if no dotted capital stands above that marker and no marker below. -/
theorem exported_name_eq_below_iff {b : Block} {ms : List (String × Value)} {key folder : String}
    {v : Value} (hslot : Asset.slot? b.kind = some (key, folder)) (hparams : b.params = .object ms)
    (hv : Value.lookup ms key = some v) (cut : Asset.Cut) (hpath : Asset.route v = cut.path)
    (hne : cut.below ≠ []) (hslash : cut.below.head? ≠ some '/') :
    ∃ ms' below, (b.locateAsset >>= shortenAssets) = .ok { b with params := .object ms' } ∧
      (∀ (p q : Project) taken i j, p.prepared taken = .ok q → p.block? i j = some b →
        q.block? i j = some { b with params := .object ms' }) ∧
      Value.lookup ms' key = some (.text (String.ofList below)) ∧
      (¬ Asset.Leads cut.kept ∧ below = cut.kept ∨
        ∃ again : Asset.Cut, again.path = cut.kept ∧ below = again.kept) ∧
      (below = cut.below ↔ 'İ' ∉ cut.above ∧ ¬ Asset.Leads cut.below) := by
  have hlocated := locateAsset_of_cut hslot hparams hv hpath
  obtain ⟨ms', hshort, hlookup⟩ := shortenAssets_of_object
    (b := { b with params := .object (Value.assign ms key (.text (String.ofList cut.kept))) }) rfl
  have hkept : cut.kept <:+ Asset.route v := by
    rw [hpath]
    exact cut.kept_suffix.trans (List.suffix_append _ _)
  obtain ⟨below, hbelow, hcases⟩ := Asset.shortened_text hkept
  have hdone : (b.locateAsset >>= shortenAssets) = .ok { b with params := .object ms' } :=
    bind_eq_ok.mpr ⟨_, hlocated, hshort⟩
  refine ⟨ms', below, hdone, fun p q taken i j hprepared hb => ?_, ?_, hcases, ?_⟩
  · obtain ⟨c, hc, hbc⟩ := Project.prepared_block? hprepared hb
    rw [hc, ← Except.ok.inj (hdone.symm.trans hbc)]
  · rw [hlookup key (Asset.mem_keys_of_slot? hslot), Value.lookup_assign, if_pos rfl,
      Option.map_some, hbelow]
  · exact cut.below_iff hne hslash hcases

def soundBlock (path : String) : Block where
  id := .text "bell"
  kind := .sound
  params := .object [("sound_file", .text path)]
  x := .int 0
  y := .int 0

/-- The marker in other letters, in a path with backslashes. -/
def chime : Block := soundBlock "C:\\Saga\\Game\\audio\\bell.ogg"

def chimeCut : Asset.Cut where
  above := "C:/Saga".toList
  mark := "/Game/".toList
  below := "audio/bell.ogg".toList
  spelled := by decide
  first := by decide

def chimes : Project where
  name := .text "Saga"
  scenes := [{ id := .text "s", name := .text "Tower", label := .text "start", blocks := [chime] }]

theorem chimes_below_game : ∃ q ms', chimes.prepared ["start"] = .ok q ∧
    q.block? 0 0 = some { chime with params := .object ms' } ∧
    Value.lookup ms' "sound_file" = some (.text "audio/bell.ogg") := by
  have hsome : (chimes.prepared ["start"]).toOption.isSome = true := by decide +kernel
  obtain ⟨q, hq⟩ := Option.isSome_iff_exists.mp hsome
  have hprepared : chimes.prepared ["start"] = .ok q := eq_ok_of_toOption hq
  obtain ⟨ms', below, -, hplace, hname, -, hbelow⟩ := exported_name_eq_below_iff (b := chime)
    rfl rfl rfl chimeCut (by decide) (by decide) (by decide)
  rw [hbelow.mpr (by decide)] at hname
  exact ⟨q, ms', hprepared, hplace chimes q ["start"] 0 0 hprepared rfl, hname⟩

/-- A second marker and a dotted capital each cost a part of the name. -/
theorem soundBlock_cut_short :
    ((soundBlock "/home/game/a/game/bell.ogg").locateAsset >>= shortenAssets >>=
        (·.render "" {})).toOption = some "play sound \"bell.ogg\"\n" ∧
      ((soundBlock "/home/İ/game/bell.ogg").locateAsset >>= shortenAssets >>=
        (·.render "" {})).toOption = some "play sound \"ell.ogg\"\n" := by
  decide +kernel

end Block

end NovelGraph
