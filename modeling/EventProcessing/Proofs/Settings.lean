import EventProcessing.Proofs.Json.Records
import EventProcessing.Settings.Document

namespace EventProcessing

open Json

namespace TrackingSettings

variable {depth : ℕ} {d next last given : Draft} {key : String} {text cs rest : List Char}
  {entry : String × List Char} {entries : List (String × List Char)} {fieldReader : Reader Draft}

section Fields

structure Draft.Keeps (key : String) (d next : Draft) : Prop where
  batchSize : key ≠ "batch_size" → next.batchSize = d.batchSize
  segmentCount : key ≠ "segment_count" → next.segmentCount = d.segmentCount
  pollInterval : key ≠ "poll_interval_ms" → next.pollInterval = d.pollInterval
  initialPosition : key ≠ "initial_position" → next.initialPosition = d.initialPosition

lemma Draft.keeps (hf : Draft.field depth d key = .ok fieldReader)
    (hr : fieldReader cs = .ok (next, rest)) : Draft.Keeps key d next := by
  unfold Draft.field at hf
  split at hf
  · obtain ⟨v, -, rfl⟩ := onceField_output hf hr
    exact ⟨fun hne => absurd rfl hne, fun _ => rfl, fun _ => rfl, fun _ => rfl⟩
  · obtain ⟨v, -, rfl⟩ := onceField_output hf hr
    exact ⟨fun _ => rfl, fun hne => absurd rfl hne, fun _ => rfl, fun _ => rfl⟩
  · obtain ⟨v, -, rfl⟩ := onceField_output hf hr
    exact ⟨fun _ => rfl, fun _ => rfl, fun hne => absurd rfl hne, fun _ => rfl⟩
  · obtain ⟨v, -, rfl⟩ := onceField_output hf hr
    exact ⟨fun _ => rfl, fun _ => rfl, fun _ => rfl, fun hne => absurd rfl hne⟩
  · obtain rfl := unknown_output hf hr
    exact ⟨fun _ => rfl, fun _ => rfl, fun _ => rfl, fun _ => rfl⟩

lemma once_batchSize (depth : ℕ) :
    Once (Draft.field depth) "batch_size" readSize Draft.batchSize where
  enters d := ⟨_, by rw [Draft.field], fun _ => rfl⟩
  keeps _ _ _ hne hf _ _ _ hr := (Draft.keeps hf hr).batchSize hne

lemma once_segmentCount (depth : ℕ) :
    Once (Draft.field depth) "segment_count" readWord32 Draft.segmentCount where
  enters d := ⟨_, by rw [Draft.field], fun _ => rfl⟩
  keeps _ _ _ hne hf _ _ _ hr := (Draft.keeps hf hr).segmentCount hne

lemma once_pollInterval (depth : ℕ) :
    Once (Draft.field depth) "poll_interval_ms" readWord64 Draft.pollInterval where
  enters d := ⟨_, by rw [Draft.field], fun _ => rfl⟩
  keeps _ _ _ hne hf _ _ _ hr := (Draft.keeps hf hr).pollInterval hne

lemma once_initialPosition (depth : ℕ) :
    Once (Draft.field depth) "initial_position" (readVariant InitialPosition.names depth)
      Draft.initialPosition where
  enters d := ⟨_, by rw [Draft.field], fun _ => rfl⟩
  keeps _ _ _ hne hf _ _ _ hr := (Draft.keeps hf hr).initialPosition hne

lemma admits_value (h : ValueText entry.2) : Admits (Draft.field depth) entry := by
  intro d fieldReader hf
  unfold Draft.field at hf
  split at hf
  · exact lenient_once hf (h.lenient_readNatural le_rfl)
  · exact lenient_once hf (h.lenient_readNatural (by decide))
  · exact lenient_once hf (h.lenient_readNatural le_rfl)
  · exact lenient_once hf h.lenient_readVariant
  · exact lenient_unknown hf h

end Fields

def PositionText (text : List Char) (position : InitialPosition) : Prop :=
  ∃ name body, (name, position) ∈ [("tail", InitialPosition.tail), ("head", .head)] ∧
    Spells body name.toList ∧ text = '"' :: (body ++ ['"'])

/-- The members give these settings and no others, each in its range. -/
structure Draft.GivenBy (entries : List (String × List Char)) (given : Draft) : Prop where
  batchSize : Given (NaturalText UInt64.size) (textsOf "batch_size" entries) given.batchSize
  segmentCount : Given (NaturalText UInt32.size) (textsOf "segment_count" entries)
    given.segmentCount
  pollInterval : Given (NaturalText UInt64.size) (textsOf "poll_interval_ms" entries)
    given.pollInterval
  initialPosition : Given PositionText (textsOf "initial_position" entries) given.initialPosition

/-- A setting is given twice, or a number is no natural number in the range of its setting. -/
inductive Flawed (entries : List (String × List Char)) : Prop
  | repeated {name : String}
      (hn : name ∈ ["batch_size", "segment_count", "poll_interval_ms", "initial_position"])
      (h : 2 ≤ (textsOf name entries).length) : Flawed entries
  | misfit {name : String} {bound : ℕ} {text : List Char}
      (hn : (name, bound) ∈ [("batch_size", UInt64.size), ("segment_count", UInt32.size),
        ("poll_interval_ms", UInt64.size)])
      (ht : text ∈ textsOf name entries) (h : ∀ n, ¬ NaturalText bound text n) : Flawed entries

lemma PositionText.reads {position : InitialPosition} (h : PositionText text position) :
    Reads (readVariant InitialPosition.names depth) text position := by
  obtain ⟨name, body, hname, hspells, rfl⟩ := h
  refine reads_variant hspells ?_
  simp only [List.mem_cons, List.not_mem_nil, or_false] at hname
  obtain ⟨⟨⟩⟩ | ⟨⟨⟩⟩ := hname <;> rfl

section Taking

variable (hv : ∀ entry ∈ entries, ValueText entry.2)

include hv

lemma takes_given (h : given.GivenBy entries) : Takes (Draft.field depth) {} entries given := by
  have hbatch : Given (Reads readSize) (textsOf "batch_size" entries) given.batchSize :=
    h.batchSize.imp fun _ _ h => h.reads le_rfl
  have hsegments : Given (Reads readWord32) (textsOf "segment_count" entries) given.segmentCount :=
    h.segmentCount.imp fun _ _ h => h.reads (by decide)
  have hpoll : Given (Reads readWord64) (textsOf "poll_interval_ms" entries) given.pollInterval :=
    h.pollInterval.imp fun _ _ h => h.reads le_rfl
  have hposition : Given (Reads (readVariant InitialPosition.names depth))
      (textsOf "initial_position" entries) given.initialPosition :=
    h.initialPosition.imp fun _ _ h => h.reads
  have hexpects (key : String) : Expects (Draft.field depth) {} key (textsOf key entries) := by
    by_cases hb : key = "batch_size"
    · exact hb ▸ (once_batchSize depth).expects rfl hbatch
    by_cases hs : key = "segment_count"
    · exact hs ▸ (once_segmentCount depth).expects rfl hsegments
    by_cases hp : key = "poll_interval_ms"
    · exact hp ▸ (once_pollInterval depth).expects rfl hpoll
    by_cases hi : key = "initial_position"
    · exact hi ▸ (once_initialPosition depth).expects rfl hposition
    exact .unknown (fun d => by rw [Draft.field] <;> assumption) fun _ =>
      valueText_of_mem fun entry he _ => hv entry he
  obtain ⟨last, hlast⟩ := exists_takes hexpects
  have hb := ((once_batchSize depth).given_of_takes hlast rfl).unique hbatch
  have hs := ((once_segmentCount depth).given_of_takes hlast rfl).unique hsegments
  have hp := ((once_pollInterval depth).given_of_takes hlast rfl).unique hpoll
  have hi := ((once_initialPosition depth).given_of_takes hlast rfl).unique hposition
  cases last
  cases given
  cases hb
  cases hs
  cases hp
  cases hi
  exact hlast

lemma naturalText_of_given {name expected : String} {bound : ℕ} {number : Option ℕ}
    (hg : Given (Reads (readNatural expected bound)) (textsOf name entries) number)
    (hb : bound ≤ UInt64.size) (ht : text ∈ textsOf name entries) :
    ∃ n, NaturalText bound text n := by
  obtain ⟨n, hn⟩ := hg.exists_of_mem ht
  exact ⟨n, naturalText_of_reads (valueText_of_mem (fun entry he _ => hv entry he) ht) hb hn⟩

lemma Flawed.not_takes (h : Flawed entries) : ¬ Takes (Draft.field depth) {} entries last := by
  intro htakes
  have hbatch := (once_batchSize depth).given_of_takes htakes rfl
  have hsegments := (once_segmentCount depth).given_of_takes htakes rfl
  have hpoll := (once_pollInterval depth).given_of_takes htakes rfl
  have hposition := (once_initialPosition depth).given_of_takes htakes rfl
  cases h with
  | repeated hn h =>
    simp only [List.mem_cons, List.not_mem_nil, or_false] at hn
    obtain rfl | rfl | rfl | rfl := hn
    · exact absurd hbatch.length_le (by omega)
    · exact absurd hsegments.length_le (by omega)
    · exact absurd hpoll.length_le (by omega)
    · exact absurd hposition.length_le (by omega)
  | misfit hn ht h =>
    simp only [List.mem_cons, List.not_mem_nil, or_false] at hn
    obtain ⟨⟨⟩⟩ | ⟨⟨⟩⟩ | ⟨⟨⟩⟩ := hn
    · obtain ⟨n, hn⟩ := naturalText_of_given hv hbatch le_rfl ht
      exact h n hn
    · obtain ⟨n, hn⟩ := naturalText_of_given hv hsegments (by decide) ht
      exact h n hn
    · obtain ⟨n, hn⟩ := naturalText_of_given hv hpoll le_rfl ht
      exact h n hn

lemma reads_given (ho : ObjectText entries text) (h : given.GivenBy entries) :
    Reads (shape.read (depth + 1)) text (given.over {}) :=
  (ho.reads_iff fun entry he => admits_value (hv entry he)).mpr ⟨given, takes_given hv h, rfl⟩

lemma Flawed.not_reads {settings : TrackingSettings} (h : Flawed entries)
    (ho : ObjectText entries text) : ¬ Reads (shape.read (depth + 1)) text settings := by
  intro hreads
  obtain ⟨last, hlast, -⟩ := (ho.reads_iff fun entry he => admits_value (hv entry he)).mp hreads
  exact h.not_takes hv hlast

end Taking

end TrackingSettings

namespace ProcessingSettings

variable {depth : ℕ} {document : List Char} {entries : List (String × List Char)}

lemma once_tracking (depth : ℕ) :
    Once (Draft.field depth) "tracking" (TrackingSettings.shape.read depth) Draft.tracking where
  enters d := ⟨_, by rw [Draft.field], fun _ => rfl⟩
  keeps d key _ hne hf cs next rest hr := by
    rw [Draft.field] at hf
    · rw [unknown_output hf hr]
    · exact hne

def Members (entries : List (String × List Char)) (text : List Char) : Prop :=
  ObjectText entries text ∧ ∀ entry ∈ entries, ValueText entry.2

def TrackingText (text : List Char) (given : TrackingSettings.Draft) : Prop :=
  ∃ entries, Members entries text ∧ given.GivenBy entries

inductive Flawed (entries : List (String × List Char)) : Prop
  | repeated (h : 2 ≤ (textsOf "tracking" entries).length) : Flawed entries
  | inner {members : List (String × List Char)} {text : List Char}
      (ht : text ∈ textsOf "tracking" entries) (hm : Members members text)
      (h : TrackingSettings.Flawed members) : Flawed entries

section Documents

variable (hothers : ∀ entry ∈ entries, entry.1 ≠ "tracking" → ValueText entry.2)

include hothers

lemma admits_members (ht : ∀ text ∈ textsOf "tracking" entries, ∃ members, Members members text) :
    ∀ entry ∈ entries, Admits (Draft.field (depth + 1)) entry := by
  intro entry he d fieldReader hf
  by_cases hkey : entry.1 = "tracking"
  · obtain ⟨members, ho, hv⟩ := ht _ (hkey ▸ mem_textsOf he)
    rw [hkey, Draft.field] at hf
    exact lenient_once hf (ho.lenient fun entry he => TrackingSettings.admits_value (hv entry he))
  · rw [Draft.field] at hf
    · exact lenient_unknown hf (hothers entry he hkey)
    · exact hkey

lemma takes_tracking {given : Option TrackingSettings.Draft}
    (h : Given TrackingText (textsOf "tracking" entries) given) :
    Takes (Draft.field (depth + 1)) {} entries { tracking := given.map (·.over {}) } := by
  have hreads : Given (Reads (TrackingSettings.shape.read (depth + 1)))
      (textsOf "tracking" entries) (given.map (·.over {})) := by
    refine h.map ?_
    rintro text given ⟨members, hm, hgiven⟩
    exact TrackingSettings.reads_given hm.2 hm.1 hgiven
  have hexpects (key : String) :
      Expects (Draft.field (depth + 1)) {} key (textsOf key entries) := by
    by_cases hkey : key = "tracking"
    · exact hkey ▸ (once_tracking _).expects rfl hreads
    · refine .unknown (fun d => by rw [Draft.field]; assumption) fun _ => valueText_of_mem ?_
      rintro entry he rfl
      exact hothers entry he hkey
  obtain ⟨last, hlast⟩ := exists_takes hexpects
  have htracking := ((once_tracking _).given_of_takes hlast rfl).unique hreads
  cases last
  cases htracking
  exact hlast

end Documents

/-- The members may stand in any order, and what stands under other names does not matter. -/
theorem decode_partial {text : String} (hd : Document document text)
    (ho : ObjectText entries document)
    (hothers : ∀ entry ∈ entries, entry.1 ≠ "tracking" → ValueText entry.2) :
    (∀ given : Option TrackingSettings.Draft,
      Given TrackingText (textsOf "tracking" entries) given →
      decode? text = .ok {
        tracking := {
          batchSize := (given.bind (·.batchSize)).getD 1
          segmentCount := (given.bind (·.segmentCount)).getD 1
          pollInterval := (given.bind (·.pollInterval)).getD 1000
          initialPosition := (given.bind (·.initialPosition)).getD .tail } }) ∧
    ((∀ value ∈ textsOf "tracking" entries, ∃ members, Members members value) →
      Flawed entries → ∃ fault, decode? text = .error fault) := by
  constructor
  · intro given hgiven
    have ha : ∀ entry ∈ entries, Admits (Draft.field 126) entry :=
      admits_members hothers fun value hvalue => by
        obtain ⟨_, members, hm, _⟩ := hgiven.exists_of_mem hvalue
        exact ⟨members, hm⟩
    refine (hd.readWhole_iff (ho.lenient ha)).mpr ((ho.reads_iff ha).mpr
      ⟨_, takes_tracking hothers hgiven, ?_⟩)
    cases given <;> rfl
  · intro hobjects hflawed
    have ha : ∀ entry ∈ entries, Admits (Draft.field 126) entry := admits_members hothers hobjects
    cases hdecode : decode? text with
    | error fault => exact ⟨fault, rfl⟩
    | ok settings =>
      obtain ⟨last, hlast, -⟩ :=
        (ho.reads_iff ha).mp ((hd.readWhole_iff (ho.lenient ha)).mp hdecode)
      have htracking := (once_tracking _).given_of_takes hlast rfl
      cases hflawed with
      | repeated h => exact absurd htracking.length_le (by omega)
      | inner ht hm h =>
        obtain ⟨settings, hreads⟩ := htracking.exists_of_mem ht
        exact absurd hreads (h.not_reads hm.2 hm.1)

namespace Sample

def Plain (cs : List Char) : Prop := ∀ c ∈ cs, c ≠ '"' ∧ c ≠ '\\' ∧ 0x20 ≤ c.toNat

instance (cs : List Char) : Decidable (Plain cs) := List.decidableBAll _ cs

lemma spells_plain_append {plain body name : List Char} (hp : Plain plain) (h : Spells body name) :
    Spells (plain ++ body) (plain ++ name) := by
  induction plain with
  | nil => exact h
  | cons c plain ih =>
    obtain ⟨hq, hs, hc⟩ := hp c List.mem_cons_self
    exact .plain hq hs hc (ih fun d hd => hp d (List.mem_cons_of_mem _ hd))

lemma spells_plain {name : List Char} (hp : Plain name) : Spells name name := by
  have hspells := spells_plain_append hp .nil
  rwa [List.append_nil] at hspells

lemma namedMember_plain {name : String} (value : List Char) (hp : Plain name.toList) :
    NamedMember (name, value) ('"' :: (name.toList ++ '"' :: ':' :: value)) :=
  ⟨name.toList, spells_plain hp, [], [], [], [], blank_nil, blank_nil, blank_nil, blank_nil,
    by simp⟩

lemma valueText_minus_one : ValueText ['-', '1'] :=
  .number (.negative (UnsignedText.mk (n := 1) .none .none))

def trackingMembers : List (String × List Char) :=
  [("retries", "[-1]".toList), ("segment_count", ['4']), ("initial_position", "\"head\"".toList)]

def trackingText : List Char :=
  "\x7b\"retries\":[-1],\"segment\\u005fcount\":4,\"initial_position\":\"head\"\x7d".toList

def settings : List (String × List Char) := [("version", "null".toList), ("tracking", trackingText)]

def settingsText : List Char :=
  "\x7b\"version\":null,\"tracking\":".toList ++ (trackingText ++ ['\x7d'])

def misfitMembers : List (String × List Char) := [("batch_size", ['-', '1'])]

def misfitText : List Char := "\x7b\"batch_size\":-1\x7d".toList

def misfit : List (String × List Char) := [("tracking", misfitText)]

def misfitSettings : List Char := "\x7b\"tracking\":".toList ++ (misfitText ++ ['\x7d'])

lemma members_trackingText : Members trackingMembers trackingText := by
  have hescaped : Spells "segment\\u005fcount".toList "segment_count".toList :=
    spells_plain_append (show Plain "segment".toList by decide)
      (.hex (a := '0') (b := '0') (c := '5') (d := 'f') rfl rfl rfl rfl (by decide)
        (spells_plain (show Plain "count".toList by decide)))
  refine ⟨⟨_, .items (.more (namedMember_plain "[-1]".toList (by decide)) (.more
    ⟨_, hescaped, [], [], [], [], blank_nil, blank_nil, blank_nil, blank_nil, rfl⟩
    (.last (namedMember_plain "\"head\"".toList (by decide))))), by rfl⟩, fun entry he => ?_⟩
  simp only [trackingMembers, List.mem_cons, List.not_mem_nil, or_false] at he
  obtain rfl | rfl | rfl := he
  · have hinside : Enclosed ElementText [['-', '1']] ['-', '1'] :=
      .items (.last ⟨[], [], blank_nil, blank_nil, rfl⟩)
    exact .array hinside fun value hv => List.mem_singleton.mp hv ▸ valueText_minus_one
  · exact .number (.unsigned (UnsignedText.mk (n := 4) .none .none))
  · have hhead : Spells "head".toList "head".toList := spells_plain (by decide)
    exact .string hhead.quotedText

def given : TrackingSettings.Draft where
  segmentCount := some 4
  initialPosition := some .head

lemma givenBy_trackingMembers : given.GivenBy trackingMembers where
  batchSize := .nil
  segmentCount := .cons ⟨by decide, rfl⟩ .nil
  pollInterval := .nil
  initialPosition := .cons ⟨"head", "head".toList, by simp, spells_plain (by decide), rfl⟩ .nil

lemma objectText_settings : ObjectText settings settingsText :=
  ⟨_, .items (.more (namedMember_plain "null".toList (by decide))
    (.last (namedMember_plain trackingText (by decide)))), by rfl⟩

lemma members_misfitText : Members misfitMembers misfitText :=
  ⟨⟨_, .items (.last (namedMember_plain ['-', '1'] (by decide))), by rfl⟩,
    fun _ he => List.mem_singleton.mp he ▸ valueText_minus_one⟩

lemma objectText_misfit : ObjectText misfit misfitSettings :=
  ⟨_, .items (.last (namedMember_plain misfitText (by decide))), by rfl⟩

lemma flawed_misfitMembers : TrackingSettings.Flawed misfitMembers := by
  have hmisfit (n : ℕ) : ¬ NaturalText UInt64.size ['-', '1'] n := by
    rintro ⟨-, hn⟩
    obtain ⟨c, more, hdigits, hc⟩ := toDigits_cons n
    rw [hdigits] at hn
    cases hn
    exact absurd hc (by decide)
  exact .misfit (List.mem_cons_self : ("batch_size", UInt64.size) ∈ _)
    (List.mem_singleton.mpr rfl) hmisfit

theorem partial_decoded :
    decode? (String.ofList (' ' :: (settingsText ++ ['\n']))) = .ok
      { tracking := { segmentCount := 4, initialPosition := .head } } ∧
    ∃ fault, decode? (String.ofList misfitSettings) = .error fault := by
  have hsettings : Document settingsText (String.ofList (' ' :: (settingsText ++ ['\n']))) :=
    ⟨[' '], ['\n'], by decide, by decide, String.toList_ofList⟩
  have hmisfit : Document misfitSettings (String.ofList misfitSettings) :=
    ⟨[], [], blank_nil, blank_nil, by simp⟩
  constructor
  · refine (decode_partial hsettings objectText_settings ?_).1 (some given) ?_
    · intro entry he hne
      simp only [settings, List.mem_cons, List.not_mem_nil, or_false] at he
      obtain rfl | rfl := he
      · exact .null
      · exact absurd rfl hne
    · exact .cons ⟨trackingMembers, members_trackingText, givenBy_trackingMembers⟩ .nil
  · refine (decode_partial hmisfit objectText_misfit ?_).2 ?_ ?_
    · intro entry he hne
      exact absurd (congrArg Prod.fst (List.mem_singleton.mp he)) hne
    · intro value hvalue
      exact ⟨misfitMembers, List.mem_singleton.mp hvalue ▸ members_misfitText⟩
    · exact .inner (List.mem_singleton.mpr rfl) members_misfitText flawed_misfitMembers

end Sample

end ProcessingSettings

end EventProcessing
