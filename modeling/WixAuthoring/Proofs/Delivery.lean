import WixAuthoring.Proofs.Pipeline

namespace WixAuthoring

/-!
# The source that is delivered

A full build writes its source twice: once to be compiled, and once to be delivered. Both times it
is the same text, and what was compiled is not changed by what is delivered.
-/

namespace Source

theorem text_head? {p : Package} {files : FileSource} {t : String} (h : text p files = .ok t) :
    (Utf8.encode t).head? = some 0x3C := by
  rw [text, bind_eq_ok_iff] at h
  obtain ⟨root, -, h⟩ := h
  split at h
  · next t' hdocument =>
      rw [Xml.document?, Option.map_eq_some_iff] at hdocument
      obtain ⟨names, -, rfl⟩ := hdocument
      obtain rfl := Except.ok.inj h
      rw [Utf8.encode_append, Utf8.encode_append]
      rfl
  · cases h

end Source

namespace Program

open CommandLine Machine

variable {o : Options} {p : Package} {m m' : Machine} {b : Plan} {text : String}
  {outputs : List Path}

theorem took_of_save {path : Path} (h : save path text m = (Except.ok path, m')) :
    m'.store.Took m.here path.text (Utf8.encode text) := by
  obtain ⟨-, s, hwrite, rfl⟩ := save_eq_ok h
  exact Disk.write_took hwrite

/-- A build that ends well has left its text in both places. -/
theorem afterSource_took (hsource : m.store.Took m.here b.source.text (Utf8.encode text))
    (h : afterSource b text m = (Except.ok outputs, m')) :
    m'.here = m.here ∧ m'.environment = m.environment ∧ m'.now = m.now ∧
      m'.commands = m.commands ++ [b.compile, b.link] ∧ outputs = [b.installer, b.delivered] ∧
      m'.store.Took m'.here b.source.text (Utf8.encode text) ∧
      m'.store.Took m'.here b.delivered.text (Utf8.encode text) := by
  obtain ⟨-, -, houtputs, hdelivered⟩ := afterSource_eq_ok h
  obtain ⟨-, s, hwrite, rfl⟩ := save_eq_ok hdelivered
  exact ⟨rfl, rfl, rfl, ran_ran_commands .., houtputs, Disk.took_of_write hsource hwrite,
    Disk.write_took hwrite⟩

/-- Whoever looks at a path finds some content, unless it leads to a device, which keeps nothing, or
to where the last build is recorded, which is done after everything else, and finds the record. -/
def Delivers (s : Store) (here : Location) (v : Variables) (record : Json.Value) (path : Path)
    (content : List UInt8) : Prop :=
  s.LeadsToDevice here path.text ∨
  s.Meet here path.text (Journal.recordPath v).text ∧ s.Records here path.text record ∨
  s.read here path.text = .ok content

theorem delivers_of_took {path : Path} {content : List UInt8}
    (h : m.store.Took m.here path.text content) (o : Options) (token : String)
    (outputs : List Path) :
    Delivers (concluded o token outputs m).store m.here m.environment
      (buildRecord m.now o token outputs) path content := by
  rw [concluded, toldAll_store, save_store]
  rcases hwrite : Disk.write m.here (Journal.recordPath m.environment)
    (Utf8.encode (buildRecord m.now o token outputs).toText) m.store with ⟨r, s⟩
  rcases Disk.took_or_meet h hwrite with htook | ⟨hmeet, hread⟩
  · rcases htook.read with hdevice | hread
    · exact .inl hdevice
    · exact .inr (.inr hread)
  · exact .inr (.inl ⟨hmeet, Store.records_toText hread⟩)

/-- A source that has been written can be rendered and written again, with the same text and without
any change. So the source that a full build delivers is the one that it compiled. -/
theorem source_delivered_as_compiled (m : Machine) :
    (∀ p root out check path m', Build.writeSource p root out check m = (Except.ok path, m') →
      (∃ text, Build.render p root check m = (Except.ok text, m) ∧
        Build.render p root check m' = (Except.ok text, m')) ∧
      Build.writeSource p root out check m' = (Except.ok path, m')) ∧
    ∀ arguments o m', CommandLine.parse arguments = .ok o → o.SelectsBuild → o.wxsOnly = false →
      run arguments m = (.code 0, m') →
      ∃ token version tools text m₁,
        manifestVersion m.store m.here o.manifest = .ok (token, version) ∧
        Toolchain.find m.store m.here m.onWindows m.environment o.wixBin = .ok tools ∧
        Build.render (Product.package version (some token)) o.sourceRoot true m =
          (Except.ok text, m) ∧
        let b := plan o (Product.package version (some token)) m.onWindows tools
        save b.source text (m.told ("Octobuild version: " ++ token)) = (Except.ok b.source, m₁) ∧
        (m₁.store.LeadsToDevice m.here b.source.text ∨
          m₁.store.read m.here b.source.text = .ok (Utf8.encode text)) ∧
        m'.commands = m₁.commands ++ [b.compile, b.link] ∧
        let record := buildRecord m.now o token [b.installer, b.delivered]
        Delivers m'.store m.here m.environment record b.source (Utf8.encode text) ∧
        Delivers m'.store m.here m.environment record b.delivered (Utf8.encode text) := by
  constructor
  · intro p root out check path m' h
    have hcontinues := Build.writeSource_continues h
    refine ⟨?_, Build.writeSource_writeSource h⟩
    obtain ⟨rfl, text, s, htext, -, rfl⟩ := Build.writeSource_eq_ok h
    have hagain := Build.text_of_continues hcontinues htext
    exact ⟨text, Build.render_of_text htext, Build.render_of_text hagain⟩
  · intro arguments o m' hparse hbuild hfull hrun
    obtain ⟨token, version, outputs, m₂, hmanifest, houtputs, hconcluded⟩ :=
      run_eq_zero hparse hbuild hrun
    rw [hconcluded]
    rcases makeOutputs_cases hfull (Product.package version (some token))
      (m.told ("Octobuild version: " ++ token)) with
      ⟨e, s, hmake, -, -⟩ | ⟨tools, text, m₁, hfind, htext, hsource, hmake⟩
    · rw [hmake] at houtputs
      cases (Prod.mk.inj houtputs).1
    · rw [hmake] at houtputs
      have hcompiled := took_of_save hsource
      obtain ⟨-, s, -, rfl⟩ := save_eq_ok hsource
      obtain ⟨hhere, henvironment, hnow, hcommands, hlist, hkept, hgiven⟩ :=
        afterSource_took hcompiled houtputs
      have hkept := delivers_of_took hkept o token outputs
      have hgiven := delivers_of_took hgiven o token outputs
      rw [hhere, henvironment, hnow] at hkept hgiven
      subst hlist
      have hrender : Build.render (Product.package version (some token)) o.sourceRoot true m =
          (Except.ok text, m) := Build.render_of_text htext
      refine ⟨token, version, tools, text, _, hmanifest, hfind, hrender, hsource, hcompiled.read,
        ?_, hkept, hgiven⟩
      rw [concluded_commands, hcommands]
      rfl

/-! ## What a workshop delivers -/

/-- With room for the delivered source, a build in the workshop succeeds. -/
theorem workshop_run_of_opens {more : List (Location × StoreObject)} {s : Store}
    (htext : Source.text workshopPackage (Build.fileSource (workshop more []) .current true) =
      .ok text)
    (hwrite : Disk.write [] workshopPlan.source (Utf8.encode text) (workshop more []).store =
      (Except.ok (), s))
    (hparent : s.isDirectory [] workshopPlan.delivered.parent.text = .ok true)
    (hopens : s.Opens [] workshopPlan.delivered.text ["target", "octobuild-1.2.3.wxs"] [] false) :
    ∃ m, run ["--wix-bin", "tools"] (workshop more []) =
        (.code 0, concluded workshopOptions "1.2.3"
          [workshopPlan.installer, workshopPlan.delivered] m) ∧
      m.here = [] ∧ m.environment = {} ∧
      m.store = s.put ["target", "octobuild-1.2.3.wxs"] (.file (Utf8.encode text) false) := by
  have hrun := workshop_run more [] htext hwrite
  generalize hm : ((workshop more []).told ("Octobuild version: " ++ "1.2.3")).withStore s = m
    at hrun
  have hstatuses : m.statuses = [] := by rw [← hm]; rfl
  have hcompile : m.outcome = .ended 0 := by rw [Machine.outcome, hstatuses]; rfl
  have hlink : (m.ran workshopPlan.compile).outcome = .ended 0 := by
    change m.statuses.tail.headD (.ended 0) = .ended 0
    rw [hstatuses]
    rfl
  have hsave : save workshopPlan.delivered text
      ((m.ran workshopPlan.compile).ran workshopPlan.link) = (Except.ok workshopPlan.delivered,
        ((m.ran workshopPlan.compile).ran workshopPlan.link).withStore (s.put
          ["target", "octobuild-1.2.3.wxs"] (.file (Utf8.encode text) false))) := by
    apply save_of_write
    subst hm
    exact Disk.write_of_opens hparent hopens _
  rw [afterSource_of_tools hcompile hlink, hsave, finish] at hrun
  exact ⟨_, hrun, by rw [← hm]; rfl, by rw [← hm]; rfl, rfl⟩

theorem workshop_delivers :
    (∃ m', Build.writeSource workshopPackage .current (workshopOptions.outDir.child "wix") true
        (workshop [] []) = (Except.ok workshopPlan.source, m') ∧
      Build.writeSource workshopPackage .current (workshopOptions.outDir.child "wix") true m' =
        (Except.ok workshopPlan.source, m')) ∧
    ∃ m' text, run ["--wix-bin", "tools"] (workshop [] []) = (.code 0, m') ∧
      Delivers m'.store [] {} (buildRecord (workshop [] []).now workshopOptions "1.2.3"
        [workshopPlan.installer, workshopPlan.delivered]) workshopPlan.delivered
        (Utf8.encode text) := by
  obtain ⟨text, htext⟩ := workshop_text [] []
  have hwrite := workshop_write [] text
  constructor
  · have hsource := Build.writeSource_of_write htext hwrite
    exact ⟨_, hsource,
      ((source_delivered_as_compiled (workshop [] [])).1 _ _ _ _ _ _ hsource).2⟩
  · have hparent : (workshopWritten text).isDirectory [] workshopPlan.delivered.parent.text =
        .ok true :=
      Store.isDirectory_of_walk spelling.target rfl
    have hopens : (workshopWritten text).Opens [] workshopPlan.delivered.text
        ["target", "octobuild-1.2.3.wxs"] [] false :=
      .fresh (Store.locate_of_walk spelling.delivered rfl)
    obtain ⟨m, hrun, -⟩ := workshop_run_of_opens htext hwrite hparent hopens
    obtain ⟨_, _, _, text, _, hmanifest, -, -, -, -, -, -, hgiven⟩ :=
      (source_delivered_as_compiled (workshop [] [])).2 _ workshopOptions _ rfl (.inl rfl) rfl hrun
    obtain ⟨rfl, rfl⟩ :=
      Prod.mk.inj (Except.ok.inj ((workshop_manifest [] []).symm.trans hmanifest))
    exact ⟨_, text, hrun, hgiven⟩

theorem buildRecord_head? (now : Moment) (o : Options) (token : String) (outputs : List Path) :
    (Utf8.encode (buildRecord now o token outputs).toText).head? = some 0x7B := by
  have hhead (rest : List Char) : (Utf8.encodeChars ('\x7b' :: rest)).head? = some 0x7B := rfl
  rw [buildRecord, Json.Value.toText, Json.Value.write, Json.writeFields, Json.bracket,
    Utf8.encode, String.toList_ofList]
  simp only [List.cons_append]
  exact hhead _

/-- Where the record can be written, it is the last thing that is written. -/
theorem workshop_run_store {more : List (Location × StoreObject)} {s t : Store}
    {place : Location} {old : List UInt8}
    (htext : Source.text workshopPackage (Build.fileSource (workshop more []) .current true) =
      .ok text)
    (hwrite : Disk.write [] workshopPlan.source (Utf8.encode text) (workshop more []).store =
      (Except.ok (), s))
    (hparent : s.isDirectory [] workshopPlan.delivered.parent.text = .ok true)
    (hopens : s.Opens [] workshopPlan.delivered.text ["target", "octobuild-1.2.3.wxs"] [] false)
    (ht : s.put ["target", "octobuild-1.2.3.wxs"] (.file (Utf8.encode text) false) = t)
    (hlogs : t.isDirectory [] (Journal.recordPath {}).parent.text = .ok true)
    (hrecord : t.Opens [] (Journal.recordPath {}).text place old false) :
    ∃ m' new, run ["--wix-bin", "tools"] (workshop more []) = (.code 0, m') ∧
      new.head? = some 0x7B ∧ m'.store = t.put place (.file new false) := by
  obtain ⟨m, hrun, hhere, henvironment, hstore⟩ := workshop_run_of_opens htext hwrite hparent hopens
  refine ⟨_, _, hrun, buildRecord_head? m.now workshopOptions "1.2.3"
    [workshopPlan.installer, workshopPlan.delivered], ?_⟩
  rw [concluded, toldAll_store, save_store, hhere, henvironment, hstore, ht,
    Disk.write_of_opens hlogs hrecord]

/-- What stands in a workshop where the place for the first source leads to a device. -/
def deviceObjects : List (Location × StoreObject) :=
  [(["dev"], .directory), (["dev", "null"], .device),
   (["target", "wix", "octobuild-1.2.3.wxs"], .link "/dev/null"),
   (["Octobuild"], .directory), (["Octobuild", "logs"], .directory)]

/-- The device keeps nothing of the source. -/
theorem deviceWorkshop_run : ∃ m',
    run ["--wix-bin", "tools"] (workshop deviceObjects []) = (.code 0, m') ∧
    m'.store.read [] workshopPlan.source.text ≠ m'.store.read [] workshopPlan.delivered.text := by
  obtain ⟨text, htext⟩ := workshop_text deviceObjects []
  have hdevice : (workshop deviceObjects []).store.locate [] .write workshopPlan.source.text =
      .ok (.object ["dev", "null"] .device) :=
    Store.locate_of_walk spelling.source rfl
  have hwrite := Disk.write_of_device (Store.isDirectory_of_walk spelling.between rfl) hdevice
    (Utf8.encode text)
  have hopens : (workshop deviceObjects []).store.Opens [] workshopPlan.delivered.text
      ["target", "octobuild-1.2.3.wxs"] [] false :=
    .fresh (Store.locate_of_walk spelling.delivered rfl)
  have hrecord : ((workshop deviceObjects []).store.put ["target", "octobuild-1.2.3.wxs"]
      (.file (Utf8.encode text) false)).Opens [] (Journal.recordPath {}).text
        ["Octobuild", "logs", "last_build.json"] [] false :=
    .fresh (Store.locate_of_walk spelling.record rfl)
  obtain ⟨m', new, hrun, -, hstore⟩ := workshop_run_store htext hwrite
    (Store.isDirectory_of_walk spelling.target rfl) hopens rfl
    (Store.isDirectory_of_walk spelling.logs rfl) hrecord
  have hsource : m'.store.locate [] .look workshopPlan.source.text =
      .ok (.object ["dev", "null"] .device) := by
    rw [hstore]
    exact Store.locate_of_walk spelling.source rfl
  have hdelivered : m'.store.locate [] .look workshopPlan.delivered.text =
      .ok (.object ["target", "octobuild-1.2.3.wxs"] (.file (Utf8.encode text) false)) := by
    rw [hstore]
    exact Store.locate_of_walk spelling.delivered rfl
  refine ⟨m', hrun, ?_⟩
  rw [Store.read, Store.read, hsource, hdelivered]
  intro h
  have hhead := Source.text_head? htext
  rw [← Except.ok.inj h] at hhead
  cases hhead

/-- What stands in a workshop where the record of the last build is a link to the place for the
second source. -/
def recordObjects : List (Location × StoreObject) :=
  [(["Octobuild"], .directory), (["Octobuild", "logs"], .directory),
   (["Octobuild", "logs", "last_build.json"], .link "../../target/octobuild-1.2.3.wxs")]

/-- The record is kept in the place of the second source. -/
theorem recordWorkshop_run : ∃ m',
    run ["--wix-bin", "tools"] (workshop recordObjects []) = (.code 0, m') ∧
    m'.store.read [] workshopPlan.source.text ≠ m'.store.read [] workshopPlan.delivered.text := by
  obtain ⟨text, htext⟩ := workshop_text recordObjects []
  have hfresh : (workshop recordObjects []).store.Opens [] workshopPlan.source.text
      ["target", "wix", "octobuild-1.2.3.wxs"] [] false :=
    .fresh (Store.locate_of_walk spelling.source rfl)
  have hwrite := Disk.write_of_opens (Store.isDirectory_of_walk spelling.between rfl) hfresh
    (Utf8.encode text)
  generalize hs : (workshop recordObjects []).store.put ["target", "wix", "octobuild-1.2.3.wxs"]
    (.file (Utf8.encode text) false) = s at hwrite
  have hopens : s.Opens [] workshopPlan.delivered.text ["target", "octobuild-1.2.3.wxs"] []
      false := by
    rw [← hs]
    exact .fresh (Store.locate_of_walk spelling.delivered rfl)
  have hrecord : (s.put ["target", "octobuild-1.2.3.wxs"] (.file (Utf8.encode text) false)).Opens []
      (Journal.recordPath {}).text ["target", "octobuild-1.2.3.wxs"] (Utf8.encode text) false := by
    rw [← hs]
    exact .old (Store.locate_of_walk spelling.record rfl)
  subst hs
  obtain ⟨m', new, hrun, hnew, hstore⟩ := workshop_run_store htext hwrite
    (Store.isDirectory_of_walk spelling.target rfl) hopens rfl
    (Store.isDirectory_of_walk spelling.logs rfl) hrecord
  have hsource : m'.store.locate [] .look workshopPlan.source.text = .ok (.object
      ["target", "wix", "octobuild-1.2.3.wxs"] (.file (Utf8.encode text) false)) := by
    rw [hstore]
    exact Store.locate_of_walk spelling.source rfl
  have hdelivered : m'.store.locate [] .look workshopPlan.delivered.text =
      .ok (.object ["target", "octobuild-1.2.3.wxs"] (.file new false)) := by
    rw [hstore]
    exact Store.locate_of_walk spelling.delivered rfl
  refine ⟨m', hrun, ?_⟩
  rw [Store.read, Store.read, hsource, hdelivered]
  intro h
  rw [← Except.ok.inj h, Source.text_head? htext] at hnew
  cases hnew

theorem copies_may_differ :
    (∃ m', run ["--wix-bin", "tools"] (workshop deviceObjects []) = (.code 0, m') ∧
      m'.store.read [] workshopPlan.source.text ≠ m'.store.read [] workshopPlan.delivered.text) ∧
    ∃ m', run ["--wix-bin", "tools"] (workshop recordObjects []) = (.code 0, m') ∧
      m'.store.read [] workshopPlan.source.text ≠ m'.store.read [] workshopPlan.delivered.text :=
  ⟨deviceWorkshop_run, recordWorkshop_run⟩

end Program

end WixAuthoring
