import WixAuthoring.Product
import WixAuthoring.Proofs.Document
import WixAuthoring.Proofs.RoundTrip
import WixAuthoring.Proofs.Strings

namespace WixAuthoring

/-!
# Documents encode packages faithfully

Each element of a document has plain names and texts for its attributes, so a reader gets back the
very elements that the document was made of.
-/

open Xml Element

namespace Attributes

structure IsPlain (attributes : Attributes) : Prop where
  each : ∀ a ∈ attributes, isAttributeName a.1 = true ∧ IsText a.2
  nodup : (attributes.map Prod.fst).Nodup

theorem isPlain_of_names {attributes : Attributes} (names : List String)
    (hnames : attributes.map Prod.fst = names)
    (hplain : (∀ n ∈ names, isAttributeName n = true) ∧ names.Nodup)
    (hvalues : ∀ value ∈ attributes.map Prod.snd, IsText value) : attributes.IsPlain := by
  subst hnames
  refine ⟨fun a ha ↦ ?_, hplain.2⟩
  exact ⟨hplain.1 a.1 (List.mem_map_of_mem ha), hvalues a.2 (List.mem_map_of_mem ha)⟩

theorem mem_set {name value : String} {attributes : Attributes} {a : String × String}
    (h : a ∈ set name value attributes) : a = (name, value) ∨ a ∈ attributes := by
  induction attributes with
  | nil => exact .inl (List.mem_singleton.1 h)
  | cons first rest ih =>
      obtain ⟨n, v⟩ := first
      rw [set] at h
      split at h
      · rename_i hn
        subst n
        exact (List.mem_cons.1 h).imp id (List.mem_cons_of_mem (name, v))
      · rcases List.mem_cons.1 h with rfl | h
        · exact .inr List.mem_cons_self
        · exact (ih h).imp id (List.mem_cons_of_mem (n, v))

theorem IsPlain.update {base extra : Attributes} (hbase : base.IsPlain)
    (hextra : ∀ a ∈ extra, isAttributeName a.1 = true ∧ IsText a.2) :
    (Attributes.update base extra).IsPlain := by
  induction extra generalizing base with
  | nil => exact hbase
  | cons a rest ih =>
      obtain ⟨name, value⟩ := a
      rw [List.forall_mem_cons] at hextra
      rw [update_cons]
      refine ih ⟨fun a ha ↦ ?_, nodup_names_set hbase.nodup⟩ hextra.2
      rcases mem_set ha with rfl | ha
      · exact hextra.1
      · exact hbase.each a ha

end Attributes

namespace Xml.Element

def IsPlainTag (name : String) (a : Attributes) : Prop := isLocalName name = true ∧ a.IsPlain

theorem isPlainTag_of_names {name : String} {a : Attributes} (names : List String)
    (hnames : a.map Prod.fst = names)
    (hplain : isLocalName name = true ∧ (∀ n ∈ names, isAttributeName n = true) ∧ names.Nodup)
    (hvalues : ∀ value ∈ a.map Prod.snd, IsText value) : IsPlainTag name a :=
  ⟨hplain.1, Attributes.isPlain_of_names names hnames hplain.2 hvalues⟩

/-- Holds of an element that is read back as it is, and so is everything below it. -/
def IsPlain (e : Element) : Prop := ∀ x ∈ e.flatten, x.IsReadable ∧ x.IsLocal

section

variable {name text : String} {a : Attributes} {children : List Element}

theorem isPlain_node (h : IsPlainTag name a) (htext : IsText text) (hreturn : '\r' ∉ text.toList)
    (halone : text = "" ∨ children = []) (hchildren : ∀ e ∈ children, e.IsPlain) :
    (node name a text children).IsPlain := by
  obtain ⟨hname, ha⟩ := h
  rw [isLocalName, Bool.and_eq_true, Bool.not_eq_true', List.contains_eq_mem,
    decide_eq_false_iff_not] at hname
  have hnames : ∀ x ∈ a, isName x.1.toList = true ∧ ':' ∉ x.1.toList ∧ x.1 ≠ "xmlns" := by
    intro x hx
    simpa [isAttributeName, isLocalName, and_assoc] using (ha.each x hx).1
  have hreadable : (node name a text children).IsReadable :=
    ⟨hname.1, fun x hx ↦ ⟨(hnames x hx).1, (ha.each x hx).2⟩, ha.nodup, htext, hreturn, halone⟩
  have hlocal : (node name a text children).IsLocal := ⟨hname.2, fun x hx ↦ (hnames x hx).2⟩
  refine forall_mem_flatten.2 ⟨⟨hreadable, hlocal⟩, fun x hx ↦ ?_⟩
  obtain ⟨e, he, hx⟩ := mem_flattenAll.1 hx
  exact hchildren e he x hx

theorem isPlain_textLeaf (h : IsPlainTag name a) (htext : IsText text)
    (hreturn : '\r' ∉ text.toList) : (textLeaf name a text).IsPlain :=
  isPlain_node h htext hreturn (.inr rfl) fun _ h ↦ absurd h List.not_mem_nil

theorem isPlain_branch (h : IsPlainTag name a) (hchildren : ∀ e ∈ children, e.IsPlain) :
    (branch name a children).IsPlain :=
  isPlain_node h isText_empty (by decide) (.inl rfl) hchildren

theorem isPlain_leaf (h : IsPlainTag name a) : (leaf name a).IsPlain :=
  isPlain_branch h fun _ h ↦ absurd h List.not_mem_nil

theorem isPlain_append {e : Element} {more : List Element} (h : e.IsPlain) (htext : e.text = "")
    (hmore : ∀ x ∈ more, x.IsPlain) : (e.append more).IsPlain := by
  obtain ⟨name, a, text, children⟩ := e
  obtain ⟨⟨hreadable, hlocal⟩, hbelow⟩ := forall_mem_flatten.1 h
  have hreadable' : (node name a text (children ++ more)).IsReadable :=
    ⟨hreadable.name, hreadable.attributes, hreadable.nodup, hreadable.text, hreadable.noReturn,
      .inl htext⟩
  have hlocal' : (node name a text (children ++ more)).IsLocal := ⟨hlocal.name, hlocal.attributes⟩
  refine forall_mem_flatten.2 ⟨⟨hreadable', hlocal'⟩, fun x hx ↦ ?_⟩
  rw [children_append, flattenAll_append, List.mem_append] at hx
  rcases hx with hx | hx
  · exact hbelow x hx
  · obtain ⟨e, he, hx⟩ := mem_flattenAll.1 hx
    exact hmore e he x hx

end

end Xml.Element

namespace Source

variable {p : Package} {files : FileSource} {root : Element}

theorem isPlain_fileComponent {package : Guid} {id installName : String} {path : Path}
    (hid : IsText id) (hname : IsText installName) (hpath : IsText path.text) :
    (fileComponent package id installName path).IsPlain := by
  have hyes : IsText "yes" := by decide
  refine isPlain_branch (isPlainTag_of_names ["Id", "Guid"] rfl (by decide) ?_) ?_
  · simp [componentId, componentGuid]
  · intro e he
    obtain rfl := List.mem_singleton.1 he
    exact isPlain_leaf (isPlainTag_of_names ["Id", "Name", "Source", "KeyPath"] rfl (by decide)
      (by simp [hid, hname, hpath, hyes]))

theorem isPlain_directoryElement {id name : String} {children : List Element} (hid : IsText id)
    (hname : IsText name) (hchildren : ∀ e ∈ children, e.IsPlain) :
    (directoryElement id name children).IsPlain :=
  isPlain_branch (isPlainTag_of_names ["Id", "Name"] rfl (by decide) (by simp [hid, hname]))
    hchildren

theorem isText_installName {f : PackagedFile} (h : ∀ s ∈ Entry.strings (.file f), IsText s) :
    IsText f.installName := by
  rw [Entry.strings, List.forall_mem_cons] at h
  refine isText_getD_given h.2 ?_
  rw [lastPart, List.getLastD_eq_getLast?]
  cases hlast : (Text.split (fun c ↦ c == '/' || c == '\\') f.source).getLast? with
  | none => exact isText_empty
  | some piece => exact isText_of_mem_split h.1 (List.mem_of_getLast? hlast)

theorem Mirrors.isPlain {package : Guid} {above : List Folder} {es : List Entry}
    {elements : List Element} (h : Mirrors package files above es elements)
    (hfiles : files.FindsTexts) (hes : ∀ s ∈ Entry.allStrings es, IsText s) :
    ∀ e ∈ elements, e.IsPlain := by
  induction h with
  | nil => simp
  | file above f path rest more hpath hrest ih =>
      rw [Entry.allStrings, List.forall_mem_append] at hes
      refine List.forall_mem_cons.2 ⟨?_, ih hes.2⟩
      have hsource : IsText f.source := hes.1 _ (by simp [Entry.strings])
      exact isPlain_fileComponent (isText_identifier _) (isText_installName hes.1)
        (hfiles _ _ hsource hpath)
  | directory above name inner own id children rest more hinner hrest ihinner ih =>
      rw [Entry.allStrings, List.forall_mem_append, Entry.strings, List.cons_append,
        List.forall_mem_cons, List.forall_mem_append] at hes
      obtain ⟨⟨hname, hid, hentries⟩, hothers⟩ := hes
      refine List.forall_mem_cons.2 ⟨?_, ih hothers⟩
      exact isPlain_directoryElement (isText_getD_given hid (isText_identifier _)) hname
        (ihinner hentries)

theorem Mirrors.text_eq_empty {package : Guid} {above : List Folder} {es : List Entry}
    {elements : List Element} (h : Mirrors package files above es elements) :
    ∀ e ∈ elements, e.text = "" := by
  induction h with
  | nil => simp
  | file above f path rest more hpath hrest ih => exact List.forall_mem_cons.2 ⟨rfl, ih⟩
  | directory above name inner own id children rest more hinner hrest ihinner ih =>
      exact List.forall_mem_cons.2 ⟨rfl, ih⟩

/-! ## Variables -/

theorem isPlain_variableComponent {package : Guid} {v : EnvironmentVariable} {index : Nat}
    (h : ∀ s ∈ Entry.strings (.environment v), IsText s)
    (hreturn : ∀ s ∈ v.condition.toList, '\r' ∉ s.toList) :
    (variableComponent package v index).IsPlain := by
  have hyes : ∀ b, IsText (yesNo b) := by decide
  have hpart : IsText v.part.text := by cases v.part <;> decide
  have haction : IsText v.action.text := by cases v.action <;> decide
  have hyesText : IsText "yes" := hyes true
  rw [Entry.strings, List.forall_mem_cons, List.forall_mem_cons] at h
  obtain ⟨hname, hvalue, hcondition⟩ := h
  refine isPlain_branch (isPlainTag_of_names ["Id", "Guid", "KeyPath"] rfl (by decide) ?_)
    fun e he ↦ ?_
  · simp [componentId, componentGuid, hyesText]
  rcases List.mem_append.1 he with he | he
  · obtain ⟨condition, hgiven, rfl⟩ := List.mem_map.1 he
    have hmem : condition ∈ v.condition.toList :=
      Option.mem_toList.2 (eq_some_of_given (Option.mem_toList.1 hgiven))
    exact isPlain_textLeaf (isPlainTag_of_names [] rfl (by decide) (by simp))
      (hcondition _ hmem) (hreturn _ hmem)
  · obtain rfl := List.mem_singleton.1 he
    exact isPlain_leaf (isPlainTag_of_names
      ["Id", "Name", "Value", "Permanent", "Part", "Action", "System"] rfl (by decide)
      (by simp [variableId, hname, hvalue, hyes, hpart, haction]))

theorem isPlain_of_mem_variableComponents (hp : p.IsEncodable) :
    ∀ e ∈ variableComponents p, e.IsPlain := by
  intro e he
  obtain ⟨⟨v, index⟩, hv, rfl⟩ := List.mem_map.1 he
  obtain ⟨hstrings, hreturn⟩ := hp.environmentVariable (List.fst_mem_of_mem_zipIdx hv)
  exact isPlain_variableComponent hstrings hreturn

theorem isPlain_of_mem_withVariableComponents {declared : List Element} (hp : p.IsEncodable)
    (hdeclared : ∀ e ∈ declared, e.IsPlain) (htext : ∀ e ∈ declared, e.text = "") :
    ∀ e ∈ withVariableComponents p declared, e.IsPlain := by
  cases declared with
  | nil => simp [withVariableComponents]
  | cons first rest =>
      rw [List.forall_mem_cons] at hdeclared htext
      exact List.forall_mem_cons.2
        ⟨isPlain_append hdeclared.1 htext.1 (isPlain_of_mem_variableComponents hp), hdeclared.2⟩

/-! ## Features -/

theorem isPlain_featureAttributes {f : Feature} (h : ∀ s ∈ f.strings, IsText s)
    (hnames : ∀ n ∈ f.attributes.map Prod.fst, isAttributeName n = true) :
    (featureAttributes f).IsPlain := by
  rw [Feature.strings, List.forall_mem_cons, List.forall_mem_cons] at h
  obtain ⟨hname, hdescription, hvalues⟩ := h
  have habsent : IsText (if f.allowChange then "allow" else "disallow") := by
    split <;> decide
  have hid : IsText f.id := isText_identifier _
  refine Attributes.IsPlain.update ?_ fun a ha ↦
    ⟨hnames a.1 (List.mem_map_of_mem ha), hvalues a.2 (List.mem_map_of_mem ha)⟩
  by_cases hempty : f.description = ""
  · rw [if_pos hempty]
    exact Attributes.isPlain_of_names ["Id", "Title", "Level", "Absent"] rfl (by decide)
      (by simp [hname, habsent, hid])
  · rw [if_neg hempty]
    exact Attributes.isPlain_of_names ["Id", "Title", "Level", "Absent", "Description"] rfl
      (by decide) (by simp [hname, habsent, hid, hdescription])

theorem isText_component {m : Membership} (hm : m ∈ memberships p) : IsText m.component := by
  rcases List.mem_append.1 hm with hm | hm
  · obtain ⟨f, -, rfl⟩ := List.mem_map.1 hm
    exact isText_identifier _
  · obtain ⟨v, -, rfl⟩ := List.mem_map.1 hm
    exact isText_identifier _

theorem isPlain_featureElement (hp : p.IsEncodable) {f : Option FeatureRef}
    {components : List String} (hcomponents : ∀ id ∈ components, IsText id) :
    (featureElement p f components).IsPlain := by
  have hname : IsText p.name := hp.strings _ (by simp [Package.strings])
  have hattributes : (featureAttributes (f.elim p.defaultFeature p.feature)).IsPlain := by
    cases f with
    | none =>
        have hstrings : ∀ s ∈ p.defaultFeature.strings, IsText s := by
          simp [Feature.strings, Package.defaultFeature, hname]
        exact isPlain_featureAttributes hstrings fun _ h ↦ absurd h List.not_mem_nil
    | some f => exact isPlain_featureAttributes (hp.feature f).1 (hp.feature f).2
  refine isPlain_branch ⟨by decide, hattributes⟩ fun e he ↦ ?_
  obtain ⟨id, hid, rfl⟩ := List.mem_map.1 he
  exact isPlain_leaf (isPlainTag_of_names ["Id"] rfl (by decide) (by simp [hcomponents id hid]))

theorem isPlain_of_mem_featureElements (hp : p.IsEncodable) :
    ∀ e ∈ featureElements p (memberships p), e.IsPlain := by
  intro e he
  obtain ⟨⟨f, components⟩, hf, rfl⟩ := List.mem_map.1 he
  rw [byFeature_eq] at hf
  obtain ⟨g, -, hg⟩ := List.mem_map.1 hf
  obtain ⟨rfl, rfl⟩ := Prod.mk.inj hg
  refine isPlain_featureElement hp fun id hid ↦ ?_
  obtain ⟨m, hm, rfl⟩ := List.mem_map.1 hid
  exact isText_component (List.mem_filter.1 hm).1

/-! ## The other parts -/

theorem isPlain_propertyElement {id value : String} (hid : IsText id) (hvalue : IsText value) :
    (propertyElement id value).IsPlain :=
  isPlain_leaf (isPlainTag_of_names ["Id", "Value"] rfl (by decide) (by simp [hid, hvalue]))

theorem isPlain_packageElement (hp : p.IsEncodable) : (packageElement p).IsPlain := by
  have hplatform : IsText p.platform := hp.strings _ (by simp [Package.strings])
  have hbase : IsText "200" ∧ IsText "yes" := by decide
  refine isPlain_leaf ⟨by decide, Attributes.IsPlain.update ?_ fun a ha ↦ ⟨?_, ?_⟩⟩
  · exact Attributes.isPlain_of_names ["InstallerVersion", "Compressed", "Platform"] rfl (by decide)
      (by simp [hplatform, hbase])
  · exact hp.names a.1 (List.mem_append_left _ (List.mem_map_of_mem ha))
  · apply hp.strings a.2
    simp only [Package.strings, List.mem_append]
    exact .inl (.inl (.inl (.inr (List.mem_map_of_mem ha))))

theorem isPlain_upgradeElement {u : MajorUpgrade} (h : ∀ s ∈ u.strings, IsText s) :
    (upgradeElement u).IsPlain := by
  have hyes : ∀ b, IsText (yesNo b) := by decide
  have hschedule : IsText u.schedule := h _ (by simp [MajorUpgrade.strings])
  have hmessage : IsText u.downgradeErrorMessage := h _ (by simp [MajorUpgrade.strings])
  exact isPlain_leaf (isPlainTag_of_names
    ["Schedule", "AllowSameVersionUpgrades", "DowngradeErrorMessage"] rfl (by decide)
    (by simp [hschedule, hmessage, hyes]))

theorem isPlain_of_mem_leadingElements (hp : p.IsEncodable) :
    ∀ e ∈ leadingElements p, e.IsPlain := by
  have hembed : IsText "yes" ∧ IsText "ARPURLINFOABOUT" := by decide
  have hurl : IsText p.urlInfoAbout := hp.strings _ (by simp [Package.strings])
  intro e he
  simp only [leadingElements, propertyElements, controlPanelElements, List.mem_append,
    List.mem_map, List.mem_cons, List.not_mem_nil, or_false] at he
  rcases he with ((rfl | rfl) | ⟨u, hu, rfl⟩) | he | ⟨x, hx, rfl⟩
  · exact isPlain_packageElement hp
  · exact isPlain_leaf (isPlainTag_of_names ["EmbedCab"] rfl (by decide) (by simp [hembed]))
  · refine isPlain_upgradeElement fun s hs ↦ hp.strings s ?_
    simp only [Package.strings, List.mem_append, List.mem_flatMap]
    exact .inl (.inl (.inr ⟨u, hu, hs⟩))
  · split at he
    · exact absurd he List.not_mem_nil
    · obtain rfl := List.mem_singleton.1 he
      exact isPlain_propertyElement hembed.2 hurl
  · obtain ⟨hname, hvalue⟩ := hp.property hx
    exact isPlain_propertyElement hname hvalue

theorem isPlain_setPropertyElement {x : SetProperty}
    (h : ∀ s ∈ Entry.strings (.setProperty x), IsText s)
    (hreturn : ∀ s ∈ x.condition.toList, '\r' ∉ s.toList) : (setPropertyElement x).IsPlain := by
  have hset : IsText "Set" ∧ IsText "_" := by decide
  simp only [Entry.strings, List.forall_mem_cons] at h
  obtain ⟨hname, hvalue, hsequence, hafter, hcondition⟩ := h
  refine isPlain_textLeaf (isPlainTag_of_names ["Id", "Action", "Value", "After", "Sequence"] rfl
    (by decide) (by simp [SetProperty.actionId, hset, hname, hvalue, hsequence, hafter])) ?_ ?_
  · cases hx : x.condition with
    | none => exact isText_empty
    | some s => exact hcondition s (by simp [hx])
  · cases hx : x.condition with
    | none => decide
    | some s => exact hreturn s (by simp [hx])

theorem isPlain_of_mem_actionElements {actions : List CustomAction}
    (h : ∀ x ∈ actions,
      (∀ s ∈ Entry.strings (.customAction x), IsText s) ∧ '\r' ∉ x.condition.toList) :
    ∀ e ∈ actionElements actions, e.IsPlain := by
  intro e he
  rw [actionElements] at he
  split at he
  · exact absurd he List.not_mem_nil
  rcases List.mem_append.1 he with he | he
  · obtain ⟨x, hx, rfl⟩ := List.mem_map.1 he
    have hx := (h x hx).1
    simp only [Entry.strings, List.forall_mem_cons] at hx
    exact isPlain_leaf (isPlainTag_of_names ["Id", "BinaryKey", "DllEntry", "Execute", "Return"] rfl
      (by decide) (by simp [hx]))
  · obtain rfl := List.mem_singleton.1 he
    refine isPlain_branch (isPlainTag_of_names [] rfl (by decide) (by simp))
      fun e he ↦ ?_
    obtain ⟨x, hx, rfl⟩ := List.mem_map.1 he
    obtain ⟨hstrings, hreturn⟩ := h x hx
    simp only [Entry.strings, List.forall_mem_cons] at hstrings
    exact isPlain_textLeaf (isPlainTag_of_names ["Action", "After"] rfl (by decide)
      (by simp [hstrings])) hstrings.2.2.2.1 hreturn

theorem isPlain_of_mem_trailingElements (hp : p.IsEncodable) (hfiles : files.FindsTexts)
    {license : List Element} (hlicense : licenseElements p files = .ok license) :
    ∀ e ∈ trailingElements p license, e.IsPlain := by
  intro e he
  simp only [trailingElements, List.mem_append] at he
  rcases he with ((he | he) | he) | he
  · obtain ⟨x, hx, rfl⟩ := List.mem_map.1 he
    exact isPlain_setPropertyElement (hp.setProperty hx).1 (hp.setProperty hx).2
  · exact isPlain_of_mem_actionElements (fun x hx ↦ hp.customAction hx) e he
  · rcases licenseElements_eq_ok hlicense with rfl | ⟨file, path, hfile, hpath, rfl⟩
    · exact absurd he List.not_mem_nil
    obtain rfl := List.mem_singleton.1 he
    have hid : IsText "WixUILicenseRtf" := by decide
    have hsource : IsText file := hp.strings _ (by simp [Package.strings, eq_some_of_given hfile])
    exact isPlain_leaf (isPlainTag_of_names ["Id", "Value"] rfl (by decide)
        (by simp [hid, hfiles file path hsource hpath]))
  · obtain ⟨ui, hui, rfl⟩ := List.mem_map.1 he
    have htext : IsText ui :=
      hp.strings _ (by simp [Package.strings, eq_some_of_given (Option.mem_toList.1 hui)])
    exact isPlain_leaf (isPlainTag_of_names ["Id"] rfl (by decide) (by simp [htext]))

theorem isPlain_productAttributes (hp : p.IsEncodable) : (productAttributes p).IsPlain := by
  have hname : IsText p.name := hp.strings _ (by simp [Package.strings])
  have hmanufacturer : IsText (if p.manufacturer = "" then p.name else p.manufacturer) := by
    split
    · exact hname
    · exact hp.strings _ (by simp [Package.strings])
  exact Attributes.isPlain_of_names
    ["Id", "Name", "Language", "Version", "Manufacturer", "UpgradeCode"] rfl (by decide)
    (by simp [productAttributes, hname, hmanufacturer, Package.productCode, Package.upgradeCode,
      Package.installerVersion, isText_installerText])

theorem isPlain_targetElement {tree : List Element} (htree : ∀ e ∈ tree, e.IsPlain) :
    (targetElement p tree).IsPlain := by
  have htarget : IsText "TARGETDIR" ∧ IsText "SourceDir" := by decide
  have hfolder : IsText (programFilesFolder p.platform) := by
    rw [programFilesFolder]
    split <;> decide
  refine isPlain_directoryElement htarget.1 htarget.2 fun e he ↦ ?_
  obtain rfl := List.mem_singleton.1 he
  exact isPlain_branch (isPlainTag_of_names ["Id"] rfl (by decide) (by simp [hfolder])) htree

theorem isPlain_productElement {tree license : List Element} (hp : p.IsEncodable)
    (hfiles : files.FindsTexts) (htree : ∀ e ∈ tree, e.IsPlain)
    (hlicense : licenseElements p files = .ok license) :
    (productElement p tree license).IsPlain := by
  refine isPlain_branch ⟨by decide, isPlain_productAttributes hp⟩ ?_
  simp only [List.forall_mem_append]
  exact ⟨⟨⟨isPlain_of_mem_leadingElements hp,
    List.forall_mem_singleton.2 (isPlain_targetElement htree)⟩,
    isPlain_of_mem_featureElements hp⟩, isPlain_of_mem_trailingElements hp hfiles hlicense⟩

/-- A package that yields a document yields a text, and whoever reads the text finds the elements
of that document, all of them in its namespace. -/
theorem text_read_back (h : element p files = .ok root) (hp : p.IsEncodable)
    (hfiles : files.FindsTexts) :
    ∃ t, text p files = .ok t ∧
      readDocument (lineEnds t.toList) = some ((root.qualify xmlns).laidOut 0) ∧
      read? t = some (root.qualify xmlns) := by
  obtain ⟨declared, license, -, hmirrors, -, hlicense, hroot⟩ := element_eq_ok h
  have hdirectories : ∀ s ∈ Entry.allStrings (directories p), IsText s := fun s hs ↦
    hp.entries s (Entry.allStrings_subset (fun e he ↦ (List.mem_filter.1 he).1) s hs)
  have htree := isPlain_of_mem_withVariableComponents hp (hmirrors.isPlain hfiles hdirectories)
    hmirrors.text_eq_empty
  have hproduct := isPlain_productElement hp hfiles htree hlicense
  have hbelow : ∀ x ∈ flattenAll [productElement p (withVariableComponents p declared) license],
      x.IsReadable ∧ x.IsLocal := by
    intro x hx
    obtain ⟨e, he, hx⟩ := mem_flattenAll.1 hx
    obtain rfl := List.mem_singleton.1 he
    exact hproduct x hx
  have hspace : IsText xmlns := by decide
  have hname : isName "Wix".toList = true ∧ ':' ∉ "Wix".toList := by decide
  obtain ⟨t, hdocument, hread⟩ := read?_document? hname.1 hname.2 hspace hbelow
  have htext : text p files = .ok t := by
    rw [text, bind_eq_ok_iff]
    refine ⟨root, h, ?_⟩
    rw [hroot, documentElement, hdocument]
    rfl
  rw [hroot]
  exact ⟨t, htext, hread⟩

/-- A package with markup, quotes and line ends in its strings. -/
def markedPackage : Package where
  name := "R&D \"tools\""
  guid := Product.upgradeGuid
  version := ⟨0, [1], none, none, none, []⟩
  entries := [.directory "tool" [.file ⟨"tool.exe", none, none⟩] none none,
    .setProperty ⟨"PATHS", "a\tb\r\n<c>", "ui", "CostFinalize", some "VERSION < 2 ]]> 1"⟩]
  ui := none
  majorUpgrade := none

theorem markedPackage_text_read_back :
    ∃ root t, element markedPackage (.unchecked .current) = .ok root ∧
      text markedPackage (.unchecked .current) = .ok t ∧ read? t = some (root.qualify xmlns) := by
  have h : element markedPackage (.unchecked .current) = .ok _ := rfl
  have hp : markedPackage.IsEncodable := ⟨by decide +kernel, by decide +kernel, by decide +kernel⟩
  have hfiles : (FileSource.unchecked .current).FindsTexts :=
    FileSource.findsTexts_unchecked fun _ h ↦ absurd h List.not_mem_nil
  obtain ⟨t, htext, -, hread⟩ := text_read_back h hp hfiles
  exact ⟨_, t, h, htext, hread⟩

end Source

end WixAuthoring
