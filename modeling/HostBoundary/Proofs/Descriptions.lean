import Mathlib.Data.List.Infix
import HostBoundary.Proofs.TreeScan
import HostBoundary.Record.Output

/-!
# What a description tells

A host describes what it knows by pasting texts between quotation marks, and
escapes nothing in them.  A contract scans the description, and parses nothing.
Neither side keeps to the rules of JSON, so a value may look like anything:
like another member, like a brace, like the escape of what follows it.

What makes the two agree is that no value has a quotation mark.  Then all the
quotation marks of a description are those that its members were pasted between,
and the labels that a scan can find are the names of its members
(`Quoted.labelled_members`).

## Braces inside of values

The scan for an object counts braces, also those inside of a value.  A value that
closes more braces than it opened ends the object too early.  One that opens more
than it closes makes it longer, but no more than that: what follows the last value
are closing braces only, and no scan looks at them.

## Main results

* `Quoted.field_of_found`, `Quoted.field_of_missing` — a field is the value of the
  first member with its name.
* `Quoted.balanced_object` — an object is taken with all its members.
* `Utxo.ofDescription_assetText` — the description of an asset tells the asset.
-/

namespace HostBoundary

open Bytes Utf8

/-! ## Braces -/

/-- No front of the text closes more braces than it opened. -/
def NeverOverclosed (s : List Char) : Prop :=
  ∀ front, front <+: s → front.count '}' ≤ front.count '{'

instance (s : List Char) : Decidable (NeverOverclosed s) :=
  decidable_of_iff (∀ front ∈ s.inits, front.count '}' ≤ front.count '{')
    (by simp only [List.mem_inits, NeverOverclosed])

namespace NeverOverclosed

variable {s t : List Char}

theorem of_notMem (noClose : '}' ∉ s) : NeverOverclosed s := by
  intro front begins
  rw [List.count_eq_zero.mpr fun mem => noClose (begins.subset mem)]
  exact Nat.zero_le _

theorem append (first : NeverOverclosed s) (second : NeverOverclosed t) :
    NeverOverclosed (s ++ t) := by
  intro front begins
  rcases List.prefix_or_prefix_of_prefix begins (List.prefix_append s t) with inside | ⟨more, rfl⟩
  · exact first front inside
  · have rest := second more ((List.prefix_append_right_inj s).mp begins)
    have whole := first s (List.prefix_refl s)
    rw [List.count_append, List.count_append]
    omega

end NeverOverclosed

/-- Inside of `depth` open braces, no front of the text closes them all. -/
def StaysOpen (depth : Nat) (s : List Char) : Prop :=
  ∀ front, front <+: s → front.count '}' < depth + front.count '{'

theorem NeverOverclosed.staysOpen {s : List Char} (never : NeverOverclosed s) : StaysOpen 1 s := by
  intro front begins
  have here := never front begins
  omega

namespace StaysOpen

variable {depth : Nat} {c : Char} {s : List Char}

theorem cons (opened : StaysOpen depth (c :: s)) {front : List Char} (begins : front <+: s) :
    (c :: front).count '}' < depth + (c :: front).count '{' :=
  opened (c :: front) ((List.prefix_cons_inj c).mpr begins)

theorem behind_open (opened : StaysOpen depth ('{' :: s)) : StaysOpen (depth + 1) s := by
  intro front begins
  have here := opened.cons begins
  rw [List.count_cons_self, List.count_cons_of_ne (by decide)] at here
  omega

/-- A closing brace is not the last one. -/
theorem behind_close (opened : StaysOpen depth ('}' :: s)) :
    ∃ outer, depth = outer + 2 ∧ StaysOpen (outer + 1) s := by
  have first := opened.cons List.nil_prefix
  rw [List.count_cons_self, List.count_cons_of_ne (by decide), List.count_nil, List.count_nil]
    at first
  refine ⟨depth - 2, by omega, fun front begins => ?_⟩
  have here := opened.cons begins
  rw [List.count_cons_self, List.count_cons_of_ne (by decide)] at here
  omega

theorem behind_other (opens : c ≠ '{') (closes : c ≠ '}') (opened : StaysOpen depth (c :: s)) :
    StaysOpen depth s := by
  intro front begins
  have here := opened.cons begins
  rwa [List.count_cons_of_ne closes, List.count_cons_of_ne opens] at here

end StaysOpen

/-- A text that stays open is passed, and leaves the count where its own braces lead
it. -/
theorem Scan.balanced_spell {s : List Char} {depth : Nat} (opened : StaysOpen depth s)
    (rest : Bytes) :
    Scan.balanced depth (spell s ++ rest)
      = spell s ++ Scan.balanced (depth + s.count '{' - s.count '}') rest := by
  induction s generalizing depth with
  | nil => rfl
  | cons c s ih =>
    rw [spell_cons, List.append_assoc, List.append_assoc]
    by_cases opens : c = '{'
    · subst opens
      have spelled : String.utf8EncodeChar '{' = [openBrace] := by decide
      rw [spelled, List.singleton_append, List.singleton_append, Scan.balanced, if_pos rfl,
        ih opened.behind_open, List.count_cons_self, List.count_cons_of_ne (by decide),
        Nat.add_right_comm, Nat.add_assoc]
    · by_cases closes : c = '}'
      · subst closes
        obtain ⟨outer, rfl, higher⟩ := opened.behind_close
        have spelled : String.utf8EncodeChar '}' = [closeBrace] := by decide
        have count : outer + 1 + s.count '{' - s.count '}'
            = outer + 2 + s.count '{' - (s.count '}' + 1) := by omega
        rw [spelled, List.singleton_append, List.singleton_append, Json.balanced_close, ih higher,
          List.count_cons_self, List.count_cons_of_ne (by decide), count]
      · have noOpen : openBrace ∉ String.utf8EncodeChar c := fun mem =>
          opens (eq_of_mem_utf8EncodeChar (by decide) (by decide) mem)
        have noClose : closeBrace ∉ String.utf8EncodeChar c := fun mem =>
          closes (eq_of_mem_utf8EncodeChar (by decide) (by decide) mem)
        rw [Json.balanced_append noOpen noClose, ih (opened.behind_other opens closes),
          List.count_cons_of_ne closes, List.count_cons_of_ne opens]

/-- Two closing braces end whatever is open in front of them, or are all taken. -/
theorem Scan.balanced_closing {depth : Nat} (inside : 0 < depth) :
    Scan.balanced depth [closeBrace, closeBrace] = [closeBrace] ∨
      Scan.balanced depth [closeBrace, closeBrace] = [closeBrace, closeBrace] := by
  have noOpen : closeBrace ≠ openBrace := by decide
  by_cases last : depth = 1
  · subst last
    exact .inl rfl
  · refine .inr ?_
    rw [Scan.balanced, if_neg noOpen, if_pos rfl, if_neg last, Scan.balanced, if_neg noOpen,
      if_pos rfl]
    split <;> rfl

namespace Quoted

/-! ## Quoted members -/

variable {members : List (String × String)} {member : String × String} {key : String}
  {text rest : Bytes} {inside places : List (Bytes × Bytes)}

/-- A name and a value, pasted between quotation marks. -/
def memberText (member : String × String) : String :=
  "\"" ++ member.1 ++ "\":\"" ++ member.2 ++ "\""

/-- Members with commas between them. -/
def membersText : List (String × String) → String
  | [] => ""
  | [member] => memberText member
  | member :: next :: members => memberText member ++ "," ++ membersText (next :: members)

/-- A member without quotation marks of its own. -/
structure Unmarked (member : String × String) : Prop where
  name : '"' ∉ member.1.toList
  value : '"' ∉ member.2.toList

/-- Where a member stands in a text: its name, and behind the colon its quoted value. -/
structure Shows (member : String × String) (place : Bytes × Bytes) : Prop where
  name : place.1 = encode member.1
  unmarked : quote ∉ encode member.2
  value : ∃ rest, place.2 = quote :: (encode member.2 ++ quote :: rest)

theorem quote_notMem_encode {s : String} (unmarked : '"' ∉ s.toList) : quote ∉ encode s := by
  rwa [encode_eq_spell, quote_mem_spell]

theorem encode_memberText (member : String × String) (rest : Bytes) :
    encode (memberText member) ++ rest
      = quote :: (encode member.1 ++ quote :: colon ::
          quote :: (encode member.2 ++ quote :: rest)) := by
  simp only [memberText, encode_append, List.append_assoc]
  rfl

theorem labelled_member (member : String × String) (unmarked : Unmarked member) (ends : Ends rest)
    (labelled : Labelled rest places) :
    ∃ place, Shows member place ∧
      Labelled (encode (memberText member) ++ rest) (place :: places) := by
  have value := quote_notMem_encode unmarked.value
  refine ⟨(encode member.1, quote :: (encode member.2 ++ quote :: rest)),
    ⟨rfl, value, rest, rfl⟩, ?_⟩
  rw [encode_memberText]
  exact (labelled.value value ends).label (quote_notMem_encode unmarked.name)

/-- **The labels of pasted members are their names.** -/
theorem labelled_members (unmarked : ∀ member ∈ members, Unmarked member) (ends : Ends rest)
    (labelled : Labelled rest places) :
    ∃ inside, List.Forall₂ Shows members inside ∧
      Labelled (encode (membersText members) ++ rest) (inside ++ places) := by
  induction members with
  | nil => exact ⟨[], .nil, labelled⟩
  | cons member members ih =>
    have first := unmarked member List.mem_cons_self
    cases members with
    | nil =>
      obtain ⟨place, shows, whole⟩ := labelled_member member first ends labelled
      exact ⟨[place], .cons shows .nil, whole⟩
    | cons next members =>
      obtain ⟨later, showLater, labelledLater⟩ :=
        ih fun m mem => unmarked m (List.mem_cons_of_mem _ mem)
      obtain ⟨place, shows, whole⟩ := labelled_member member first (Json.ends_comma _)
        (labelledLater.between (by decide))
      refine ⟨place :: later, .cons shows showLater, ?_⟩
      rw [membersText, encode_append, encode_append, List.append_assoc, List.append_assoc]
      exact whole

/-- The labels of an object of pasted members, with one or two braces behind them. -/
theorem labelled_braced (unmarked : ∀ member ∈ members, Unmarked member) {closing : String}
    (form : closing = "\x7d" ∨ closing = "\x7d\x7d") :
    ∃ inside, List.Forall₂ Shows members inside ∧
      Labelled (encode ("\x7b" ++ membersText members ++ closing)) inside := by
  have braces : Ends (encode closing) ∧ quote ∉ encode closing := by
    rcases form with rfl | rfl <;> exact ⟨Json.ends_closeBrace _, by decide⟩
  obtain ⟨inside, shows, inner⟩ := labelled_members unmarked braces.1 (.of_notMem braces.2)
  rw [List.append_nil] at inner
  refine ⟨inside, shows, ?_⟩
  rw [encode_append, encode_append, List.append_assoc]
  exact inner.between (by decide)

/-! ### What the scans take -/

namespace Shows

variable {place : Bytes × Bytes}

theorem name_iff (shows : Shows member place) (key : String) :
    place.1 = encode key ↔ member.1 = key := by
  rw [shows.name, encode_inj]

theorem begins_quote (shows : Shows member place) : [quote] <+: place.2 := by
  obtain ⟨rest, written⟩ := shows.value
  rw [written]
  exact ⟨_, rfl⟩

/-- The value is taken up to its closing quotation mark. -/
theorem untilQuote (shows : Shows member place) :
    Scan.untilQuote (place.2.drop 1) = encode member.2 := by
  obtain ⟨rest, written⟩ := shows.value
  rw [written, List.drop_one, List.tail_cons]
  exact Scan.untilQuote_of_notMem shows.unmarked rest

theorem looseValue (shows : Shows member place) : Scan.looseValue place.2 = encode member.2 := by
  have taken := shows.untilQuote
  obtain ⟨rest, written⟩ := shows.value
  rw [written] at taken ⊢
  exact taken

end Shows

theorem close_find? (shows : List.Forall₂ Shows members inside) (key : String) :
    (inside.find? fun l => l.1 = encode key ∧ [quote] <+: l.2).map
        (fun l => Scan.untilQuote (l.2.drop 1))
      = (members.find? (·.1 = key)).map fun m => encode m.2 := by
  refine Json.map_find?_of_forall₂ shows ?_ fun m l shown _ => shown.untilQuote
  intro m l shown
  rw [decide_eq_decide, shown.name_iff]
  exact and_iff_left shown.begins_quote

theorem loose_find? (shows : List.Forall₂ Shows members inside) (key : String) :
    (inside.find? (·.1 = encode key)).map (fun l => Scan.looseValue l.2)
      = (members.find? (·.1 = key)).map fun m => encode m.2 := by
  refine Json.map_find?_of_forall₂ shows ?_ fun m l shown _ => shown.looseValue
  intro m l shown
  rw [decide_eq_decide, shown.name_iff]

/-- **A field is the value of the first member with its name**, whatever stands behind
the members. -/
theorem field_of_found {text : String} (shows : List.Forall₂ Shows members inside)
    (labelled : Labelled (encode text) (inside ++ places)) (word : Word (encode key))
    (found : members.find? (·.1 = key) = some member) : Scan.field text key = member.2 := by
  have close : Scan.closeSlice (encode text) (encode key) = encode member.2 := by
    rw [labelled.closeSlice word, List.find?_append, Option.map_or, close_find? shows, found]
    rfl
  have loose : Scan.looseSlice (encode text) (encode key) = encode member.2 := by
    rw [labelled.looseSlice word, List.find?_append, Option.map_or, loose_find? shows, found]
    rfl
  rw [Scan.field, Scan.fieldSlice, close, loose]
  exact (congrArg decodeOrEmpty (ite_self _)).trans (decodeOrEmpty_encode _)

/-- A field without a member is empty. -/
theorem field_of_missing {text : String} (shows : List.Forall₂ Shows members inside)
    (labelled : Labelled (encode text) inside) (word : Word (encode key))
    (missing : members.find? (·.1 = key) = none) : Scan.field text key = "" := by
  have close : Scan.closeSlice (encode text) (encode key) = [] := by
    rw [labelled.closeSlice word, close_find? shows, missing]
    rfl
  have loose : Scan.looseSlice (encode text) (encode key) = [] := by
    rw [labelled.looseSlice word, loose_find? shows, missing]
    rfl
  rw [Scan.field, Scan.fieldSlice, close, loose]
  rfl

/-! ### Objects of members -/

theorem neverOverclosed_member (name : NeverOverclosed member.1.toList)
    (value : NeverOverclosed member.2.toList) : NeverOverclosed (memberText member).toList := by
  have opens : NeverOverclosed ['"'] := .of_notMem (by decide)
  have colons : NeverOverclosed ['"', ':', '"'] := .of_notMem (by decide)
  simp only [memberText, String.toList_append]
  exact (((opens.append name).append colons).append value).append opens

/-- Members close no more braces than their values do. -/
theorem neverOverclosed_members (each : ∀ member ∈ members,
      NeverOverclosed member.1.toList ∧ NeverOverclosed member.2.toList) :
    NeverOverclosed (membersText members).toList := by
  induction members with
  | nil => exact .of_notMem (by decide)
  | cons member members ih =>
    obtain ⟨name, value⟩ := each member List.mem_cons_self
    have first := neverOverclosed_member name value
    cases members with
    | nil => exact first
    | cons next members =>
      have commas : NeverOverclosed [','] := .of_notMem (by decide)
      have later := ih fun m mem => each m (List.mem_cons_of_mem _ mem)
      simp only [membersText, String.toList_append]
      exact (first.append commas).append later

/-- **An object is taken with all its members**, and with one or two of the braces
behind them. -/
theorem balanced_object (never : NeverOverclosed (membersText members).toList) :
    ∃ closing, (closing = "\x7d" ∨ closing = "\x7d\x7d") ∧
      Scan.balanced 0 (openBrace :: (encode (membersText members) ++ [closeBrace, closeBrace]))
        = encode ("\x7b" ++ membersText members ++ closing) := by
  have opened := never.staysOpen
  have inside := opened _ (List.prefix_refl _)
  have body := Scan.balanced_spell opened [closeBrace, closeBrace]
  rw [← encode_eq_spell] at body
  have taken (closing : String) (ends : Scan.balanced (1 + (membersText members).toList.count '{'
        - (membersText members).toList.count '}') [closeBrace, closeBrace] = encode closing) :
      Scan.balanced 0 (openBrace :: (encode (membersText members) ++ [closeBrace, closeBrace]))
        = encode ("\x7b" ++ membersText members ++ closing) := by
    rw [Scan.balanced, if_pos rfl, body, ends, encode_append, encode_append]
    rfl
  rcases Scan.balanced_closing (Nat.sub_pos_of_lt inside) with one | both
  · exact ⟨_, .inl rfl, taken _ one⟩
  · exact ⟨_, .inr rfl, taken _ both⟩

end Quoted

/-! ## Assets -/

namespace Utxo

/-- The members of the object of an asset. -/
def holding (amount : UInt64) (tokenId : Option String) : List (String × String) :=
  ("amount", decimal amount) :: (tokenId.map fun id => ("tokenId", id)).toList

/-- The description of an asset has two members: the owner, and an object of its own. -/
theorem encode_assetText (owner : Address) (amount : UInt64) (tokenId : Option String) :
    encode (assetText owner amount tokenId)
      = openBrace :: (encode (Quoted.memberText ("owner", Base64.encode owner.toBytes))
        ++ comma :: quote :: (encode "asset" ++ quote :: colon :: openBrace ::
          (encode (Quoted.membersText (holding amount tokenId)) ++ [closeBrace, closeBrace]))) := by
  -- the text is written out, since it takes Lean long to find the equations of `assetText`
  cases tokenId with
  | none =>
    show encode ("\x7b\"owner\":\"" ++ Base64.encode owner.toBytes
      ++ "\",\"asset\":\x7b\"amount\":\"" ++ decimal amount ++ "\"" ++ "" ++ "\x7d\x7d") = _
    simp only [holding, Quoted.membersText, Quoted.memberText, Option.map_none, Option.toList_none,
      encode_append, List.append_assoc]
    rfl
  | some id =>
    show encode ("\x7b\"owner\":\"" ++ Base64.encode owner.toBytes
      ++ "\",\"asset\":\x7b\"amount\":\"" ++ decimal amount ++ "\""
      ++ (",\"tokenId\":\"" ++ id ++ "\"") ++ "\x7d\x7d") = _
    simp only [holding, Quoted.membersText, Quoted.memberText, Option.map_some, Option.toList_some,
      encode_append, List.append_assoc]
    rfl

/-- A description with an object for an asset is one of an asset. -/
theorem describedType_of_object {json : String} (nonempty : Scan.object json "asset" ≠ "") :
    describedType json = .asset := by
  have member : hasMember json "asset" = true := by
    rw [hasMember, Bool.or_eq_true, bne_iff_ne, bne_iff_ne]
    exact .inr nonempty
  rw [describedType, if_pos member]

/-- An owner that was encoded is decoded. -/
theorem describedOwner_of_field {json : String} {owner : Address}
    (field : Scan.field json "owner" = Base64.encode owner.toBytes) :
    describedOwner json = some owner := by
  have whole : owner.toBytes.take 20 = owner.toBytes :=
    List.take_of_length_le (Nat.le_of_eq owner.length_toBytes)
  rw [describedOwner, field, decodeBase64OrEmpty, Base64.utf8_encode, Base64.decodeOrEmpty,
    Base64.decode_symbols]
  simp only [whole, FixedBytes.ofBytes?_toBytes]

section Asset

variable {owner : Address} {amount : UInt64} {tokenId : Option String}

theorem forall_holding {P : String × String → Prop} (number : P ("amount", decimal amount))
    (token : ∀ id ∈ tokenId, P ("tokenId", id)) : ∀ member ∈ holding amount tokenId, P member := by
  intro member mem
  rcases List.mem_cons.mp mem with rfl | mem
  · exact number
  · obtain ⟨id, named, rfl⟩ := Option.map_eq_some_iff.mp (Option.mem_toList.mp mem)
    exact token id named

theorem unmarked_holding (amount : UInt64) (unmarked : ∀ id ∈ tokenId, '"' ∉ id.toList) :
    ∀ member ∈ holding amount tokenId, Quoted.Unmarked member := by
  have amountName : '"' ∉ "amount".toList := by decide
  have tokenName : '"' ∉ "tokenId".toList := by decide
  have number : '"' ∉ (decimal amount).toList := fun mem =>
    absurd (Json.plainText_decimal amount _ mem).1 (by decide)
  exact forall_holding ⟨amountName, number⟩ fun id mem => ⟨tokenName, unmarked id mem⟩

theorem neverOverclosed_holding (amount : UInt64)
    (never : ∀ id ∈ tokenId, NeverOverclosed id.toList) :
    NeverOverclosed (Quoted.membersText (holding amount tokenId)).toList := by
  have amountName : '}' ∉ "amount".toList := by decide
  have tokenName : '}' ∉ "tokenId".toList := by decide
  have number : '}' ∉ (decimal amount).toList := fun mem =>
    (Json.plainText_decimal amount _ mem).2.2 rfl
  exact Quoted.neverOverclosed_members <|
    forall_holding ⟨.of_notMem amountName, .of_notMem number⟩ fun id mem =>
      ⟨.of_notMem tokenName, never id mem⟩

/-- The owner and the object of an asset are found in its description. -/
theorem scan_assetText (owner : Address) (amount : UInt64)
    (unmarked : ∀ id ∈ tokenId, '"' ∉ id.toList)
    (never : ∀ id ∈ tokenId, NeverOverclosed id.toList) :
    Scan.field (assetText owner amount tokenId) "owner" = Base64.encode owner.toBytes ∧
    ∃ closing, (closing = "\x7d" ∨ closing = "\x7d\x7d") ∧
      Scan.object (assetText owner amount tokenId) "asset"
        = "\x7b" ++ Quoted.membersText (holding amount tokenId) ++ closing := by
  have ownerName : '"' ∉ "owner".toList := by decide
  have letters : '"' ∉ (Base64.encode owner.toBytes).toList := fun mem =>
    absurd (Json.plainText_base64 owner.toBytes _ mem).1 (by decide)
  have noQuotes : quote ∉ [closeBrace, closeBrace] := by decide
  obtain ⟨inside, -, inner⟩ := Quoted.labelled_members (unmarked_holding amount unmarked)
    (Json.ends_closeBrace [closeBrace]) (.of_notMem noQuotes)
  have noQuote : quote ∉ encode "asset" := by decide
  have brace : openBrace ≠ quote := by decide
  have object := (inner.between brace).label noQuote
  obtain ⟨place, shown, outer⟩ := Quoted.labelled_member
    ("owner", Base64.encode owner.toBytes) ⟨ownerName, letters⟩ (Json.ends_comma _)
    (object.between (by decide))
  have description := outer.between brace
  rw [← encode_assetText] at description
  constructor
  · have word : Word (encode "owner") := by decide
    exact Quoted.field_of_found (.cons shown .nil) description word rfl
  · obtain ⟨closing, form, taken⟩ :=
      Quoted.balanced_object (neverOverclosed_holding amount never)
    refine ⟨closing, form, ?_⟩
    have names : "owner" ≠ "asset" := by decide
    have notOwner : ¬ place.1 = encode "asset" := mt (shown.name_iff "asset").mp names
    rw [Scan.object, description.objectSlice (by decide),
      List.find?_cons_of_neg (by simp [notOwner]), List.find?_cons_of_pos (by simp),
      Option.map_some, Option.getD_some, taken, decodeOrEmpty_encode]

/-- The members of the object of an asset are found in it. -/
theorem labelled_object (amount : UInt64) (unmarked : ∀ id ∈ tokenId, '"' ∉ id.toList)
    {closing : String} (form : closing = "\x7d" ∨ closing = "\x7d\x7d") :
    ∃ inside, List.Forall₂ Quoted.Shows (holding amount tokenId) inside ∧
      Labelled (encode ("\x7b" ++ Quoted.membersText (holding amount tokenId) ++ closing))
        inside :=
  Quoted.labelled_braced (unmarked_holding amount unmarked) form

/-- **The description of an asset tells the asset**, whatever its token id is called, as
long as that has no quotation mark and closes no braces that it did not open. -/
theorem ofDescription_assetText (outPoint : OutPoint) (owner : Address) (amount : UInt64)
    {tokenId : Option String} (unmarked : ∀ id ∈ tokenId, '"' ∉ id.toList)
    (never : ∀ id ∈ tokenId, NeverOverclosed id.toList) :
    ofDescription outPoint (assetText owner amount tokenId)
      = { outPoint
          output := {
            outputType := .asset
            recipient := some owner
            amount
            tokenId := tokenId.bind nonempty?
            data := [] } } := by
  obtain ⟨ownerField, closing, form, object⟩ := scan_assetText owner amount unmarked never
  obtain ⟨inside, shows, labelled⟩ := labelled_object amount unmarked form
  rw [← object] at labelled
  have isAsset : describedType (assetText owner amount tokenId) = .asset := by
    apply describedType_of_object
    rw [object]
    simp
  have alone : Labelled (encode (Scan.object (assetText owner amount tokenId) "asset"))
      (inside ++ []) := by rwa [List.append_nil]
  have held : Scan.amount (Scan.object (assetText owner amount tokenId) "asset") "amount"
      = amount := by
    have found : (holding amount tokenId).find? (·.1 = "amount")
        = some ("amount", decimal amount) := rfl
    rw [Scan.amount, Quoted.field_of_found shows alone (by decide) found,
      Scan.leadingAmount_decimal]
  have token : nonempty?
      (Scan.field (Scan.object (assetText owner amount tokenId) "asset") "tokenId")
      = tokenId.bind nonempty? := by
    cases tokenId with
    | none =>
      rw [Quoted.field_of_missing shows labelled (by decide) rfl]
      rfl
    | some id =>
      have found : (holding amount (some id)).find? (·.1 = "tokenId") = some ("tokenId", id) := rfl
      rw [Quoted.field_of_found shows alone (by decide) found]
      rfl
  simp only [ofDescription, isAsset, if_true, describedOwner_of_field ownerField, held, token]

/-- A token id with braces left open, a backslash at its end and texts that look like
members. -/
def openTokenId : String := "\x7btokenId:\x7bamount:9\x7d,owner:\x7b\\"

/-- Such a token id is told as it is. -/
theorem ofDescription_assetText_open :
    '"' ∉ openTokenId.toList ∧ NeverOverclosed openTokenId.toList ∧
    ofDescription ⟨.zero, 1⟩ (assetText ⟨List.replicate 20 7, rfl⟩ 5 (some openTokenId))
      = ⟨⟨.zero, 1⟩, ⟨.asset, some ⟨List.replicate 20 7, rfl⟩, 5, some openTokenId, []⟩⟩ := by
  have unmarked : '"' ∉ openTokenId.toList := by decide
  have never : NeverOverclosed openTokenId.toList := by decide
  refine ⟨unmarked, never, ofDescription_assetText ⟨.zero, 1⟩ ⟨List.replicate 20 7, rfl⟩ 5 ?_ ?_⟩
  · rintro id ⟨⟩
    exact unmarked
  · rintro id ⟨⟩
    exact never

end Asset

end Utxo

end HostBoundary
