import LiveFeed.Proofs.Carrying
import LiveFeed.Proofs.MirrorRuns

namespace LiveFeed

namespace Mount

end Mount

namespace OrderedList

variable {R : Type} {layout : Layout R} {l : OrderedList layout} {base : String}

end OrderedList

end LiveFeed
