import Ideep.Descriptor
import Ideep.Buffer
import Ideep.ChannelShuffle
import Ideep.Attr
import Ideep.Fusion
import Ideep.Folding
import Ideep.Computation
import Ideep.Cache
import Ideep.BatchNorm
import Ideep.Concat
import Ideep.SumArray.BatchOnly
import Ideep.SumArray.Reduction
import Ideep.SumArray.Channel
import Ideep.WeightsDescriptor
import Ideep.Dropout
import Ideep.SumArray.Axes
import Ideep.InnerProduct
import Ideep.Lrn
